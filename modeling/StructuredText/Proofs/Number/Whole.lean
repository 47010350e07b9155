import StructuredText.Proofs.Number.Shortest

/- Arithmetic on whole LREALs is exact as long as the results need no more bits than a mantissa
   has. -/
namespace StructuredText
namespace LReal

/-- What a finite number is worth; the others count as nothing. -/
def value : LReal → ℚ
  | .finite negative mantissa exponent => signed negative mantissa * 2 ^ exponent
  | _ => 0

theorem cast_signed (negative : Bool) (n : Nat) :
    (signed negative n : ℚ) = (if negative then -1 else 1) * n := by
  cases negative <;> simp [signed]

theorem signed_natAbs (n : Int) : signed (n < 0) n.natAbs = n := by
  by_cases below : n < 0
  · simp only [signed, below, decide_true, if_true]
    omega
  · simp only [signed, below, decide_false, Bool.false_eq_true, if_false]
    omega

theorem isInteger_finite_iff (negative : Bool) (mantissa : Nat) (exponent : Int) (n : Int) :
    isInteger n (.finite negative mantissa exponent) = true ↔
      (signed negative mantissa : ℚ) * 2 ^ exponent = n := by
  have up : (0 : ℚ) < 2 ^ (-exponent).toNat := by positivity
  rw [isInteger, decide_eq_true_eq, zpow_eq_div, mul_div_assoc', div_eq_iff up.ne',
    ← Int.cast_inj (α := ℚ)]
  push_cast
  rw [cast_signed, cast_signed]
  push_cast
  rw [mul_assoc]

theorem value_of_isInteger {x : LReal} {n : Int} (whole : x.isInteger n = true) : x.value = n := by
  cases x with
  | finite negative mantissa exponent => exact (isInteger_finite_iff ..).mp whole
  | infinite negative => contradiction
  | nan => contradiction

theorem exists_canonical {n : Nat} (filled : 0 < n) (small : n < 2 ^ precision) :
    ∃ mantissa exponent, 0 < mantissa ∧ IsCanonical mantissa exponent ∧
      (mantissa : ℚ) * 2 ^ exponent = n := by
  have bits : Nat.log2 n < precision := (Nat.log2_lt filled.ne').mpr small
  have bounds : 2 ^ Nat.log2 n ≤ n ∧ n < 2 ^ (Nat.log2 n + 1) :=
    ⟨Nat.log2_self_le filled.ne', Nat.lt_log2_self⟩
  obtain ⟨free, total⟩ : ∃ free, Nat.log2 n + 1 + free = precision :=
    ⟨precision - 1 - Nat.log2 n, by omega⟩
  have last : Nat.log2 n + free = precision - 1 := by omega
  refine ⟨n * 2 ^ free, -free, by positivity, ⟨?_, ?_, ?_, Or.inl ?_⟩, ?_⟩
  · rw [← total, pow_add]
    exact Nat.mul_lt_mul_of_pos_right bounds.2 (by positivity)
  · rw [leastExponent]
    rw [precision] at total
    omega
  · rw [greatestExponent]
    omega
  · rw [← last, pow_add]
    exact Nat.mul_le_mul_right _ bounds.1
  · push_cast
    rw [zpow_neg, zpow_natCast, mul_assoc, mul_inv_cancel₀ (by positivity), mul_one]

theorem holds_value {mantissa : Nat} (filled : 0 < mantissa) (exponent : Int) :
    (surroundings mantissa exponent).Holds (mantissa * 2 ^ exponent) := by
  have wide := isWide_surroundings filled exponent
  have unit : (0 : ℚ) < 2 ^ (surroundings mantissa exponent).unit := by positivity
  have same : (mantissa : ℚ) * 2 ^ exponent =
      (surroundings mantissa exponent).value * 2 ^ (surroundings mantissa exponent).unit := by
    rw [quarter]
    simp only [surroundings]
    push_cast
    ring
  have low : ((surroundings mantissa exponent).low : ℚ) <
      (surroundings mantissa exponent).value := by
    exact_mod_cast wide.low
  have high : ((surroundings mantissa exponent).value : ℚ) <
      (surroundings mantissa exponent).high := by
    exact_mod_cast wide.high
  rw [same]
  refine ⟨?_, ?_, Or.inr ⟨?_, ?_⟩⟩ <;> gcongr

theorem isInteger_ofRatio {num den n : Nat} (positive : 0 < den) (small : n < 2 ^ precision)
    (exact : (num : ℚ) / den = n) (negative : Bool) :
    isInteger (signed negative n) (ofRatio negative num den) = true := by
  rcases Nat.eq_zero_or_pos n with rfl | filled
  · have none : num = 0 := by
      have : (den : ℚ) ≠ 0 := by positivity
      simpa [this] using exact
    rw [ofRatio, if_pos none, zero, isInteger_finite_iff]
    cases negative <;> simp [signed]
  · obtain ⟨mantissa, exponent, filled', canonical, same⟩ := exists_canonical filled small
    have near := holds_value filled' exponent
    rw [same, ← exact] at near
    rw [ofRatio_eq positive canonical filled' near, isInteger_finite_iff, cast_signed, cast_signed,
      mul_assoc, same]

theorem isInteger_ofInt {n : Int} (small : n.natAbs < 2 ^ precision) :
    isInteger n (ofInt n) = true := by
  have exact : ((n.natAbs : Nat) : ℚ) / (1 : Nat) = n.natAbs := by simp
  have whole := isInteger_ofRatio Nat.one_pos small exact (n < 0)
  rwa [signed_natAbs] at whole

theorem isInteger_ofScaled {negative : Bool} {mantissa : Nat} {exponent n : Int}
    (small : n.natAbs < 2 ^ precision)
    (exact : (signed negative mantissa : ℚ) * 2 ^ exponent = n) :
    isInteger n (ofScaled negative mantissa exponent) = true := by
  have size : (mantissa : ℚ) * 2 ^ exponent = n.natAbs := by
    have absolute := congrArg abs exact
    rw [cast_signed, abs_mul, abs_mul] at absolute
    cases negative <;> simpa [abs_of_pos, zpow_pos] using absolute
  have sign : signed negative n.natAbs = n := by
    have signs : (signed negative n.natAbs : ℚ) = n := by
      rw [cast_signed, ← size, ← mul_assoc, ← cast_signed, exact]
    exact_mod_cast signs
  have ratio : ((mantissa * 2 ^ exponent.toNat : Nat) : ℚ) / (2 ^ (-exponent).toNat : Nat) =
      n.natAbs := by
    rw [← size, zpow_eq_div]
    push_cast
    exact (mul_div_assoc' ..).symm
  have whole := isInteger_ofRatio (by positivity) small ratio negative
  rwa [sign] at whole

theorem exists_finite {x : LReal} {n : Int} (whole : x.isInteger n = true) :
    ∃ negative mantissa exponent, x = .finite negative mantissa exponent ∧
      (signed negative mantissa : ℚ) * 2 ^ exponent = n := by
  cases x with
  | finite negative mantissa exponent => exact ⟨_, _, _, rfl, (isInteger_finite_iff ..).mp whole⟩
  | infinite negative => contradiction
  | nan => contradiction

section Operations
variable {x y : LReal} {a b : Int} (left : x.isInteger a = true) (right : y.isInteger b = true)
include left right

theorem isInteger_mul (small : (a * b).natAbs < 2 ^ precision) :
    isInteger (a * b) (x * y) = true := by
  obtain ⟨sign, m, e, rfl, first⟩ := exists_finite left
  obtain ⟨sign', m', e', rfl, second⟩ := exists_finite right
  refine isInteger_ofScaled small ?_
  rw [Int.cast_mul, ← first, ← second, zpow_add₀ two_ne_zero, cast_signed, cast_signed,
    cast_signed]
  push_cast
  cases sign <;> cases sign' <;> simp <;> ring

theorem isInteger_add (small : (a + b).natAbs < 2 ^ precision) :
    isInteger (a + b) (x + y) = true := by
  obtain ⟨sign, m, e, rfl, first⟩ := exists_finite left
  obtain ⟨sign', m', e', rfl, second⟩ := exists_finite right
  have shifted {sign : Bool} {m : Nat} {e least : Int} (le : least ≤ e) :
      (signed sign (m * 2 ^ (e - least).toNat) : ℚ) * 2 ^ least = signed sign m * 2 ^ e := by
    have split : e = (e - least).toNat + least := by omega
    conv_rhs => rw [split, zpow_add₀ two_ne_zero, zpow_natCast]
    rw [cast_signed, cast_signed]
    push_cast
    ring
  have exact := congrArg₂ (· + ·) ((shifted (Int.min_le_left e e')).trans first)
    ((shifted (Int.min_le_right e e')).trans second)
  simp only [← add_mul, ← Int.cast_add] at exact
  change isInteger (a + b) (add _ _) = true
  simp only [add]
  generalize signed sign (m * 2 ^ (e - min e e').toNat) +
    signed sign' (m' * 2 ^ (e' - min e e').toNat) = sum at exact ⊢
  split
  · next none =>
    rw [zero, isInteger_finite_iff, ← exact, none]
    cases sign && sign' <;> simp [signed]
  · refine isInteger_ofScaled small ?_
    rw [signed_natAbs, exact]

end Operations

theorem value_add_mul {start step : LReal} {a b count : Nat} (first : start.isInteger a = true)
    (apart : step.isInteger b = true) (few : count < 2 ^ precision)
    (small : a + count * b < 2 ^ precision) :
    (start + ofInt count * step).value = start.value + count * step.value := by
  have product := isInteger_mul (isInteger_ofInt (n := count) few) apart (by omega)
  have sum := isInteger_add first product (by omega)
  rw [value_of_isInteger sum, value_of_isInteger first, value_of_isInteger apart]
  push_cast
  rfl

end LReal
end StructuredText
