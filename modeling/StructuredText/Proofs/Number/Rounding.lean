import Mathlib.Algebra.Order.Field.Power
import Mathlib.Data.Rat.Cast.Order
import Mathlib.Tactic.FieldSimp
import Mathlib.Tactic.Linarith
import Mathlib.Tactic.Positivity
import Mathlib.Tactic.Ring
import StructuredText.Number.Decimal

/- What rounding a fraction to an LREAL gives: every fraction between the midpoints beside a number
   becomes that number. -/
namespace StructuredText
namespace LReal

/-- A finite number that rounding can give: the mantissa has all its bits, or the exponent is the
    least. -/
structure IsCanonical (mantissa : Nat) (exponent : Int) : Prop where
  small : mantissa < 2 ^ precision
  least : leastExponent ≤ exponent
  greatest : exponent ≤ greatestExponent
  full : 2 ^ (precision - 1) ≤ mantissa ∨ exponent = leastExponent

/-- A fraction no farther than a half from a number is rounded to it, if the number is even or the
    fraction is nearer. -/
theorem nearest_eq {num den n : Nat} (positive : 0 < den) (below : 2 * n * den ≤ 2 * num + den)
    (above : 2 * num ≤ (2 * n + 1) * den)
    (tie : n % 2 = 0 ∨ (2 * n * den < 2 * num + den ∧ 2 * num < (2 * n + 1) * den)) :
    nearest num den = n := by
  have split : den * (num / den) + num % den = num := Nat.div_add_mod num den
  have rest : num % den < den := Nat.mod_lt num positive
  rw [nearest]
  generalize num / den = q at split ⊢
  generalize num % den = r at split rest ⊢
  have low : n < q + 2 := by
    by_contra far
    have scaled : den * (q + 2) ≤ den * n := Nat.mul_le_mul_left den (by omega)
    linarith
  have high : q ≤ n := by
    by_contra far
    have scaled : den * (n + 1) ≤ den * q := Nat.mul_le_mul_left den (by omega)
    linarith
  obtain rfl | rfl : n = q ∨ n = q + 1 := by omega
  · have down : 2 * r ≤ den := by linarith
    rw [if_neg]
    rintro (up | ⟨half, odd⟩)
    · omega
    · rcases tie with even | ⟨-, strict⟩
      · omega
      · linarith
  · have up : den ≤ 2 * r := by linarith
    rw [if_pos]
    rcases tie with even | ⟨strict, -⟩
    · omega
    · left
      linarith

theorem nearest_eq_of_ratio {num den n : Nat} (positive : 0 < den) {y : ℚ}
    (same : (num : ℚ) / den = y) (below : 2 * n - 1 ≤ 2 * y) (above : 2 * y ≤ 2 * n + 1)
    (tie : n % 2 = 0 ∨ (2 * n - 1 < 2 * y ∧ 2 * y < 2 * n + 1)) : nearest num den = n := by
  have unit : (0 : ℚ) < den := by exact_mod_cast positive
  have whole : (num : ℚ) = y * den := by rw [← same, div_mul_cancel₀ _ (ne_of_gt unit)]
  have down : (2 * n * den : ℚ) ≤ 2 * num + den := by rw [whole]; nlinarith
  have up : (2 * num : ℚ) ≤ (2 * n + 1) * den := by rw [whole]; nlinarith
  apply nearest_eq positive (by exact_mod_cast down) (by exact_mod_cast up)
  rcases tie with even | ⟨low, high⟩
  · exact Or.inl even
  · have down : (2 * n * den : ℚ) < 2 * num + den := by rw [whole]; nlinarith
    have up : (2 * num : ℚ) < (2 * n + 1) * den := by rw [whole]; nlinarith
    exact Or.inr ⟨by exact_mod_cast down, by exact_mod_cast up⟩

theorem scaled_pos (num : Nat) {den : Nat} (positive : 0 < den) (exponent : Int) :
    0 < (scaled num den exponent).2 := by
  rw [scaled]
  positivity

theorem scaled_ratio (num den : Nat) (exponent : Int) :
    ((scaled num den exponent).1 : ℚ) / (scaled num den exponent).2 =
      (num : ℚ) / den / 2 ^ exponent := by
  rw [scaled]
  push_cast
  rcases Int.le_total 0 exponent with up | down
  · obtain ⟨n, rfl⟩ := Int.eq_ofNat_of_zero_le up
    simp [div_div]
  · obtain ⟨n, eq⟩ := Int.eq_ofNat_of_zero_le (Int.neg_nonneg_of_nonpos down)
    obtain rfl : exponent = -n := by omega
    simp [div_eq_mul_inv]
    ring

theorem ratio_bounds {num den : Nat} (filled : num ≠ 0) (positive : 0 < den) :
    (2 : ℚ) ^ ((Nat.log2 num : Int) - Nat.log2 den) < 2 * ((num : ℚ) / den) ∧
      (num : ℚ) / den < 2 * 2 ^ ((Nat.log2 num : Int) - Nat.log2 den) := by
  have unit : (0 : ℚ) < den := by exact_mod_cast positive
  have numLow : (2 : ℚ) ^ Nat.log2 num ≤ num := by exact_mod_cast Nat.log2_self_le filled
  have numHigh : (num : ℚ) < 2 ^ Nat.log2 num * 2 := by
    rw [← pow_succ]
    exact_mod_cast Nat.lt_log2_self
  have denLow : (2 : ℚ) ^ Nat.log2 den ≤ den := by
    exact_mod_cast Nat.log2_self_le (Nat.ne_of_gt positive)
  have denHigh : (den : ℚ) < 2 ^ Nat.log2 den * 2 := by
    rw [← pow_succ]
    exact_mod_cast Nat.lt_log2_self
  have split : (2 : ℚ) ^ ((Nat.log2 num : Int) - Nat.log2 den) =
      2 ^ Nat.log2 num / 2 ^ Nat.log2 den := by
    rw [zpow_sub₀ (by norm_num), zpow_natCast, zpow_natCast]
  have power : (0 : ℚ) < 2 ^ Nat.log2 den := by positivity
  rw [split]
  constructor
  · rw [← mul_div_assoc, div_lt_div_iff₀ power unit]
    nlinarith
  · rw [← mul_div_assoc, div_lt_div_iff₀ unit power]
    nlinarith

/-- At its normal exponent a fraction has a mantissa of `precision` bits. -/
theorem normalExponent_spec {num den : Nat} (filled : num ≠ 0) (positive : 0 < den) :
    (num : ℚ) / den < 2 ^ (normalExponent num den + precision) ∧
      (2 : ℚ) ^ (normalExponent num den + precision) ≤ 2 * ((num : ℚ) / den) := by
  obtain ⟨low, high⟩ := ratio_bounds filled positive
  have unit := scaled_pos num positive (Nat.log2 num - Nat.log2 den - (precision - 1 : Nat))
  have ratio := scaled_ratio num den (Nat.log2 num - Nat.log2 den - (precision - 1 : Nat))
  rw [normalExponent]
  generalize (Nat.log2 num : Int) - Nat.log2 den = d at *
  generalize (num : ℚ) / den = x at *
  have power : (2 : ℚ) ^ (d - (precision - 1 : Nat)) * 2 ^ (precision - 1) = 2 ^ d := by
    rw [← zpow_natCast, ← zpow_add₀ (by norm_num), Int.sub_add_cancel]
  have below : (scaled num den (d - (precision - 1 : Nat))).1 <
      2 ^ (precision - 1) * (scaled num den (d - (precision - 1 : Nat))).2 ↔ x < 2 ^ d := by
    have positive : (0 : ℚ) < (scaled num den (d - (precision - 1 : Nat))).2 := by
      exact_mod_cast unit
    rw [← @Nat.cast_lt ℚ, Nat.cast_mul, ← div_lt_iff₀ positive, ratio,
      div_lt_iff₀ (by positivity), ← power, mul_comm]
    norm_cast
  split
  · next small =>
    have place : d - (precision - 1 : Nat) - 1 + precision = d := by
      rw [precision]
      omega
    rw [place]
    exact ⟨below.mp small, le_of_lt low⟩
  · next large =>
    have place : d - (precision - 1 : Nat) + precision = d + 1 := by
      rw [precision]
      omega
    have next : (2 : ℚ) ^ (d + 1) = 2 * 2 ^ d := by rw [zpow_add_one₀ (by norm_num), mul_comm]
    rw [place, next]
    have least := not_lt.mp (mt below.mpr large)
    exact ⟨high, by linarith⟩

section Exponent
variable {num den : Nat} (filled : num ≠ 0) (positive : 0 < den) {exponent : Int}
include filled positive

theorem normalExponent_le (high : (num : ℚ) / den < 2 ^ (exponent + precision)) :
    normalExponent num den ≤ exponent := by
  obtain ⟨-, least⟩ := normalExponent_spec filled positive
  have next : (2 : ℚ) ^ (exponent + precision + 1) = 2 ^ (exponent + precision) * 2 :=
    zpow_add_one₀ (by norm_num) _
  have less : (2 : ℚ) ^ (normalExponent num den + precision) < 2 ^ (exponent + precision + 1) := by
    linarith
  have := (zpow_lt_zpow_iff_right₀ (by norm_num)).mp less
  omega

theorem le_normalExponent (low : (2 : ℚ) ^ (exponent + precision) ≤ 2 * ((num : ℚ) / den)) :
    exponent ≤ normalExponent num den := by
  obtain ⟨most, -⟩ := normalExponent_spec filled positive
  have next : (2 : ℚ) ^ (normalExponent num den + precision + 1) =
      2 ^ (normalExponent num den + precision) * 2 := zpow_add_one₀ (by norm_num) _
  have less : (2 : ℚ) ^ (exponent + precision) < 2 ^ (normalExponent num den + precision + 1) := by
    linarith
  have := (zpow_lt_zpow_iff_right₀ (by norm_num)).mp less
  omega

end Exponent

/-- The reals between the bounds; those on a bound belong to the number if its mantissa is even. -/
structure Surroundings.Holds (s : Surroundings) (x : ℚ) : Prop where
  low : s.low * 2 ^ s.unit ≤ x
  high : x ≤ s.high * 2 ^ s.unit
  strict : s.closed = true ∨ (s.low * 2 ^ s.unit < x ∧ x < s.high * 2 ^ s.unit)

theorem ofRounded_of_small {mantissa : Nat} {exponent : Int} (small : mantissa < 2 ^ precision)
    (greatest : exponent ≤ greatestExponent) (negative : Bool) :
    ofRounded negative mantissa exponent = .finite negative mantissa exponent := by
  rw [ofRounded, if_neg (Nat.ne_of_lt small), if_neg (by omega)]

theorem ofRatio_of_filled {num den : Nat} (filled : num ≠ 0) (negative : Bool) {exponent : Int}
    (place : max leastExponent (normalExponent num den) = exponent) :
    ofRatio negative num den =
      ofRounded negative (nearest (scaled num den exponent).1 (scaled num den exponent).2)
        exponent := by
  rw [ofRatio, if_neg filled, place]

theorem quarter (exponent : Int) : (2 : ℚ) ^ exponent = 4 * 2 ^ (exponent - 2) := by
  have split := zpow_add₀ (two_ne_zero : (2 : ℚ) ≠ 0) (exponent - 2) 2
  rw [Int.sub_add_cancel] at split
  rw [split]
  norm_num
  ring

theorem half (exponent : Int) : (2 : ℚ) ^ (exponent - 1) = 2 * 2 ^ (exponent - 2) := by
  rw [← zpow_one_add₀ (by norm_num)]
  congr 1
  omega

section Near
variable {num den mantissa : Nat} (positive : 0 < den) {exponent : Int}
  (canonical : IsCanonical mantissa exponent) (filled : 0 < mantissa)
  (near : (surroundings mantissa exponent).Holds (num / den))
include near

theorem high_near :
    num / den ≤ (4 * mantissa + 2 : ℚ) * 2 ^ (exponent - 2) ∧
      (mantissa % 2 = 1 → num / den < (4 * mantissa + 2 : ℚ) * 2 ^ (exponent - 2)) := by
  obtain ⟨-, high, strict⟩ := near
  simp only [surroundings, decide_eq_true_eq] at high strict
  push_cast at high strict
  refine ⟨high, fun odd => ?_⟩
  rcases strict with even | ⟨-, strict⟩
  · omega
  · exact strict

include filled

theorem low_near :
    (4 * mantissa - 2 : ℚ) * 2 ^ (exponent - 2) ≤ num / den ∧
      (mantissa = 2 ^ (precision - 1) → leastExponent < exponent →
        (4 * mantissa - 1 : ℚ) * 2 ^ (exponent - 2) ≤ num / den) ∧
      (mantissa % 2 = 1 → (4 * mantissa - 2 : ℚ) * 2 ^ (exponent - 2) < num / den) := by
  have unit : (0 : ℚ) < 2 ^ (exponent - 2) := by positivity
  have least : 2 ≤ 4 * mantissa := by omega
  have lower : ((4 * mantissa - 2 : Nat) : ℚ) = 4 * mantissa - 2 := by push_cast [least]; ring
  have closer : ((4 * mantissa - 1 : Nat) : ℚ) = 4 * mantissa - 1 := by
    have : 1 ≤ 4 * mantissa := by omega
    push_cast [this]
    ring
  obtain ⟨low, -, strict⟩ := near
  simp only [surroundings, decide_eq_true_eq] at low strict
  split at low
  · next power =>
    rw [if_pos power] at strict
    rw [closer] at low strict
    refine ⟨by nlinarith, fun _ _ => low, fun odd => ?_⟩
    rcases strict with even | ⟨strict, -⟩
    · omega
    · nlinarith
  · next other =>
    rw [if_neg other] at strict
    rw [lower] at low strict
    refine ⟨low, fun same above => absurd ⟨same, above⟩ other, fun odd => ?_⟩
    rcases strict with even | ⟨strict, -⟩
    · omega
    · exact strict

theorem num_ne_zero : num ≠ 0 := by
  rintro rfl
  have unit : (0 : ℚ) < 2 ^ (exponent - 2) := by positivity
  have low := (low_near filled near).1
  have one : (1 : ℚ) ≤ mantissa := by exact_mod_cast filled
  rw [Nat.cast_zero, zero_div] at low
  nlinarith

include positive

theorem nearest_near :
    nearest (scaled num den exponent).1 (scaled num den exponent).2 = mantissa := by
  have unit : (0 : ℚ) < 2 ^ (exponent - 2) := by positivity
  obtain ⟨low, -, lower⟩ := low_near filled near
  obtain ⟨high, higher⟩ := high_near near
  have ratio := scaled_ratio num den exponent
  rw [quarter] at ratio
  apply nearest_eq_of_ratio (scaled_pos num positive exponent) ratio
  · rw [mul_div_assoc', le_div_iff₀ (by positivity)]
    linarith
  · rw [mul_div_assoc', div_le_iff₀ (by positivity)]
    linarith
  · rcases Nat.mod_two_eq_zero_or_one mantissa with even | odd
    · exact Or.inl even
    · right
      rw [mul_div_assoc', lt_div_iff₀ (by positivity), div_lt_iff₀ (by positivity)]
      have := lower odd
      have := higher odd
      constructor <;> linarith

theorem lt_of_normalExponent_lt (less : normalExponent num den < exponent) :
    (num : ℚ) / den < 2 * 2 ^ precision * 2 ^ (exponent - 2) := by
  by_contra large
  have high : (2 : ℚ) ^ (exponent + precision) ≤ 2 * ((num : ℚ) / den) := by
    rw [zpow_add₀ (by norm_num), quarter, zpow_natCast]
    linarith
  have := le_normalExponent (num_ne_zero filled near) positive high
  omega

include canonical

theorem normalExponent_le_of_near : normalExponent num den ≤ exponent := by
  have unit : (0 : ℚ) < 2 ^ (exponent - 2) := by positivity
  obtain ⟨high, -⟩ := high_near near
  have small : (mantissa : ℚ) + 1 ≤ 2 ^ precision := by exact_mod_cast canonical.small
  apply normalExponent_le (num_ne_zero filled near) positive
  rw [zpow_add₀ (by norm_num), quarter, zpow_natCast]
  nlinarith

section Carry
variable (above : leastExponent < exponent)
  (under : (num : ℚ) / den < 2 * 2 ^ precision * 2 ^ (exponent - 2))
include above under

omit positive in
theorem mantissa_eq_of_under : mantissa = 2 ^ (precision - 1) := by
  have unit : (0 : ℚ) < 2 ^ (exponent - 2) := by positivity
  obtain ⟨low, -⟩ := low_near filled near
  refine Nat.le_antisymm ?_ (canonical.full.resolve_right (by omega))
  by_contra more
  have more : (2 ^ (precision - 1) + 1 : ℚ) ≤ mantissa := by exact_mod_cast Nat.lt_of_not_le more
  have two : (2 : ℚ) * 2 ^ precision ≤ 4 * mantissa - 2 := by
    have bits : precision = 52 + 1 := rfl
    rw [bits, Nat.add_sub_cancel] at more
    rw [bits, pow_succ]
    linarith
  have := mul_le_mul_of_nonneg_right two unit.le
  linarith

omit positive in
theorem close_of_under :
    (2 * 2 ^ precision - 1 : ℚ) * 2 ^ (exponent - 2) ≤ (num : ℚ) / den := by
  obtain rfl := mantissa_eq_of_under canonical filled near above under
  obtain ⟨-, close, -⟩ := low_near filled near
  have close := close rfl above
  norm_num [precision] at close ⊢
  exact close

theorem max_normalExponent_of_under (less : normalExponent num den < exponent) :
    max leastExponent (normalExponent num den) = exponent - 1 := by
  have unit : (0 : ℚ) < 2 ^ (exponent - 2) := by positivity
  have close := close_of_under canonical filled near above under
  have low : (2 : ℚ) ^ (exponent - 1 + precision) ≤ 2 * ((num : ℚ) / den) := by
    rw [zpow_add₀ (by norm_num), half, zpow_natCast]
    norm_num [precision] at close ⊢
    linarith
  have ge := le_normalExponent (num_ne_zero filled near) positive low
  omega

theorem nearest_of_under :
    nearest (scaled num den (exponent - 1)).1 (scaled num den (exponent - 1)).2 =
      2 ^ precision := by
  have unit : (0 : ℚ) < 2 ^ (exponent - 2) := by positivity
  have close := close_of_under canonical filled near above under
  have ratio := scaled_ratio num den (exponent - 1)
  rw [half] at ratio
  apply nearest_eq_of_ratio (scaled_pos num positive _) ratio
  · rw [mul_div_assoc', le_div_iff₀ (by positivity)]
    norm_num [precision] at close ⊢
    linarith
  · rw [mul_div_assoc', div_le_iff₀ (by positivity)]
    norm_num [precision] at under ⊢
    linarith
  · exact Or.inl rfl

end Carry

theorem ofRatio_eq (negative : Bool) :
    ofRatio negative num den = .finite negative mantissa exponent := by
  have num_pos := num_ne_zero filled near
  have least := canonical.least
  have le := normalExponent_le_of_near positive canonical filled near
  by_cases own : max leastExponent (normalExponent num den) = exponent
  · rw [ofRatio_of_filled num_pos negative own, nearest_near positive filled near,
      ofRounded_of_small canonical.small canonical.greatest]
  · have above : leastExponent < exponent := by omega
    have less : normalExponent num den < exponent := by omega
    have under := lt_of_normalExponent_lt positive filled near less
    have carries := nearest_of_under positive canonical filled near above under
    have place := max_normalExponent_of_under positive canonical filled near above under less
    have fits : ¬ exponent - 1 + 1 > greatestExponent := by
      have := canonical.greatest
      omega
    rw [mantissa_eq_of_under canonical filled near above under,
      ofRatio_of_filled num_pos negative place, carries, ofRounded, if_pos rfl, if_neg fits,
      Int.sub_add_cancel]

end Near

theorem nearest_le {num den n : Nat} (positive : 0 < den) (most : num ≤ n * den) :
    nearest num den ≤ n := by
  have quotient : num / den ≤ n := Nat.div_le_of_le_mul (by rwa [Nat.mul_comm])
  rw [nearest]
  split
  · next up =>
    by_contra past
    have same : num / den = n := by omega
    have split := Nat.div_add_mod num den
    rw [same, Nat.mul_comm] at split
    omega
  · exact quotient

theorem le_nearest {num den n : Nat} (positive : 0 < den) (least : n * den ≤ num) :
    n ≤ nearest num den := by
  have quotient : n ≤ num / den := (Nat.le_div_iff_mul_le positive).mpr least
  rw [nearest]
  split <;> omega

/-- Rounding gives nothing but canonical numbers, and keeps the sign. -/
theorem isCanonical_of_ofRatio {num den mantissa : Nat} (positive : 0 < den) {exponent : Int}
    {negative sign : Bool} (found : ofRatio negative num den = .finite sign mantissa exponent) :
    sign = negative ∧ IsCanonical mantissa exponent := by
  by_cases filled : num = 0
  · rw [ofRatio, if_pos filled, zero] at found
    cases found
    exact ⟨rfl, by decide, Int.le_refl _, by decide, Or.inr rfl⟩
  · obtain ⟨place, chosen⟩ : ∃ place, max leastExponent (normalExponent num den) = place := ⟨_, rfl⟩
    rw [ofRatio_of_filled filled negative chosen] at found
    obtain ⟨high, low⟩ := normalExponent_spec filled positive
    have ratio := scaled_ratio num den place
    have unit := scaled_pos num positive place
    generalize scaled num den place = fraction at found ratio unit
    have den_pos : (0 : ℚ) < fraction.2 := by exact_mod_cast unit
    have power : (0 : ℚ) < 2 ^ place := by positivity
    have most : nearest fraction.1 fraction.2 ≤ 2 ^ precision := by
      apply nearest_le unit
      have step : (2 : ℚ) ^ (normalExponent num den + precision) ≤ 2 ^ (place + precision) :=
        zpow_le_zpow_right₀ (by norm_num) (by omega)
      rw [zpow_add₀ (by norm_num) place, zpow_natCast] at step
      have bound : (fraction.1 : ℚ) / fraction.2 ≤ 2 ^ precision := by
        rw [ratio, div_le_iff₀ power]
        linarith
      rw [div_le_iff₀ den_pos] at bound
      exact_mod_cast bound
    rw [ofRounded] at found
    split at found
    · split at found
      · contradiction
      · next fits =>
        cases found
        exact ⟨rfl, by decide, by omega, by omega, Or.inl (Nat.le_refl _)⟩
    · next other =>
      split at found
      · contradiction
      · next fits =>
        cases found
        refine ⟨rfl, by omega, by omega, by omega, ?_⟩
        by_cases least : exponent = leastExponent
        · exact Or.inr least
        · left
          apply le_nearest unit
          have own : normalExponent num den = exponent := by omega
          have bound : (2 ^ (precision - 1) : ℚ) ≤ (fraction.1 : ℚ) / fraction.2 := by
            have bits : precision = 52 + 1 := rfl
            rw [own, zpow_add₀ (by norm_num), zpow_natCast, bits, pow_succ] at low
            rw [ratio, le_div_iff₀ power, bits, Nat.add_sub_cancel]
            linarith
          rw [le_div_iff₀ den_pos] at bound
          exact_mod_cast bound

end LReal
end StructuredText
