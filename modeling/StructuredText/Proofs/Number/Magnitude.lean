import StructuredText.Proofs.Expression.Reading
import StructuredText.Proofs.Number.Whole

/- Which LREALs are written with an exponent part: those below a ten-thousandth and those from ten
   to the sixteenth on.  The layout looks at the digits that were chosen, not at the number; but the
   reals that read back to different numbers lie in the order of these numbers, and the number that a
   power of ten reads back to has no other digits. -/
namespace StructuredText
namespace LReal

section Order
variable {m m' : Nat} {e e' : Int}

theorem le_low_surroundings (filled : 0 < m) : 4 * m - 2 ≤ (surroundings m e).low := by
  simp only [surroundings]
  split <;> omega

theorem le_low_of_full (full : 2 ^ (precision - 1) ≤ m) (above : leastExponent < e) :
    2 ^ (precision + 1) - 1 ≤ (surroundings m e).low := by
  have low : (surroundings m e).low = if m = 2 ^ (precision - 1) ∧ e > leastExponent
    then 4 * m - 1 else 4 * m - 2 := rfl
  by_cases power : m = 2 ^ (precision - 1)
  · rw [low, if_pos ⟨power, above⟩, power]
    decide
  · rw [low, if_neg fun both => power both.1]
    rw [precision] at full power ⊢
    omega

theorem lt_of_exponent_lt (small : m < 2 ^ precision) (full : 2 ^ (precision - 1) ≤ m')
    (exponents : e < e') : (m : ℚ) * 2 ^ e < m' * 2 ^ e' := by
  have unit : (0 : ℚ) < 2 ^ e := by positivity
  have shift : (2 : ℚ) * 2 ^ e ≤ 2 ^ e' := by
    rw [← zpow_one_add₀ two_ne_zero]
    exact zpow_le_zpow_right₀ one_le_two (by omega)
  have less : (m : ℚ) < m' * 2 := by
    rw [precision] at small full
    exact_mod_cast (by omega : m < m' * 2)
  calc (m : ℚ) * 2 ^ e < m' * 2 * 2 ^ e := by gcongr
    _ = m' * (2 * 2 ^ e) := by ring
    _ ≤ m' * 2 ^ e' := by gcongr

variable (canonical : IsCanonical m e) (canonical' : IsCanonical m' e')
include canonical canonical'

/-- What reads back to a number lies below what reads back to a greater one. -/
theorem high_le_low (less : (m : ℚ) * 2 ^ e < m' * 2 ^ e') :
    ((surroundings m e).high : ℚ) * 2 ^ (surroundings m e).unit ≤
      (surroundings m' e').low * 2 ^ (surroundings m' e').unit := by
  have unit : (0 : ℚ) < 2 ^ (e - 2) := by positivity
  have filled : 0 < m' := by
    rcases Nat.eq_zero_or_pos m' with rfl | filled
    · have : (0 : ℚ) ≤ m * 2 ^ e := by positivity
      simp only [Nat.cast_zero, zero_mul] at less
      linarith
    · exact filled
  have low := @le_low_surroundings m' e' filled
  have high : (surroundings m e).high = 4 * m + 2 := rfl
  have units : (surroundings m e).unit = e - 2 ∧ (surroundings m' e').unit = e' - 2 := ⟨rfl, rfl⟩
  rw [high, units.1, units.2]
  rcases lt_trichotomy e e' with exponents | rfl | exponents
  · -- half of the last bit of the greater number is at least a last bit of the other
    have above : leastExponent < e' := lt_of_le_of_lt canonical.least exponents
    have full : 2 ^ (precision - 1) ≤ m' := canonical'.full.resolve_right (ne_of_gt above)
    have shift : (2 : ℚ) * 2 ^ (e - 2) ≤ 2 ^ (e' - 2) := by
      rw [← zpow_one_add₀ two_ne_zero]
      exact zpow_le_zpow_right₀ one_le_two (by omega)
    have bits : 4 * m + 2 ≤ (surroundings m' e').low * 2 := by
      have small := canonical.small
      have lowFull := le_low_of_full full above
      rw [precision] at small lowFull
      omega
    calc ((4 * m + 2 : Nat) : ℚ) * 2 ^ (e - 2)
        ≤ ((surroundings m' e').low * 2 : Nat) * 2 ^ (e - 2) := by gcongr
      _ = (surroundings m' e').low * (2 * 2 ^ (e - 2)) := by push_cast; ring
      _ ≤ (surroundings m' e').low * 2 ^ (e' - 2) := by gcongr
  · have next : m < m' := by
      have power : (0 : ℚ) < 2 ^ e := by positivity
      exact_mod_cast lt_of_mul_lt_mul_right less power.le
    gcongr
    omega
  · have full : 2 ^ (precision - 1) ≤ m :=
      canonical.full.resolve_right (by have := canonical'.least; omega)
    exact absurd less (not_lt.mpr (lt_of_exponent_lt canonical'.small full exponents).le)

theorem eq_of_value (filled : 0 < m) (filled' : 0 < m')
    (same : (m : ℚ) * 2 ^ e = m' * 2 ^ e') : m = m' ∧ e = e' := by
  have ratio : ((m * 2 ^ e.toNat : Nat) : ℚ) / (2 ^ (-e).toNat : Nat) = m * 2 ^ e := by
    rw [zpow_eq_div]
    push_cast
    exact mul_div_assoc ..
  have near := holds_value filled e
  have near' := holds_value filled' e'
  rw [← ratio] at near
  rw [← same, ← ratio] at near'
  have read := ofRatio_eq (by positivity) canonical filled near false
  have read' := ofRatio_eq (by positivity) canonical' filled' near' false
  obtain ⟨-, mantissas, exponents⟩ := LReal.finite.inj (read.symm.trans read')
  exact ⟨mantissas, exponents⟩

end Order

def decimal (m : Nat) (e : Int) : ℚ := (shortestDecimal m e).1 * 10 ^ (shortestDecimal m e).2

def decimalExponent (m : Nat) (e : Int) : Int :=
  (shortestDecimal m e).2 + (naturalText (shortestDecimal m e).1).length - 1

theorem mem_decimalText_iff {form : DecimalForm} {digits : Text}
    (each : ∀ c ∈ digits, c.isDigit = true) {exponent : Int} :
    'e' ∈ decimalText form digits exponent ↔
      ¬ (form.plainFrom ≤ exponent ∧ exponent ≤ form.plainTo) := by
  have digit : 'e' ∉ digits := fun mem => absurd (each _ mem) (by decide)
  have zeros (n : Nat) : 'e' ∉ List.replicate n '0' :=
    fun mem => absurd (List.eq_of_mem_replicate mem) (by decide)
  have padded (n : Nat) : 'e' ∉ digits ++ List.replicate n '0' := by
    rw [List.mem_append, not_or]
    exact ⟨digit, zeros n⟩
  rw [decimalText]
  split
  · next plain =>
    refine iff_of_false ?_ (not_not.mpr plain)
    split
    · rw [List.mem_append, List.mem_append, not_or, not_or]
      exact ⟨⟨by decide, zeros _⟩, digit⟩
    · dsimp only
      rw [List.mem_append, List.mem_cons]
      rintro (mem | same | mem)
      · exact padded _ (List.mem_of_mem_take mem)
      · contradiction
      · exact padded _ (List.mem_of_mem_drop mem)
  · next other =>
    refine iff_of_true ?_ other
    exact List.mem_append_right _ List.mem_cons_self

theorem pow_le_of_naturalText {n : Nat} (filled : 0 < n) :
    10 ^ ((naturalText n).length - 1) ≤ n := by
  by_contra less
  rcases Nat.eq_zero_or_pos ((naturalText n).length - 1) with one | several
  · rw [one] at less
    omega
  · have short := Nat.toDigits_length 10 n _ several (Nat.lt_of_not_le less)
    rw [← naturalText] at short
    omega

theorem lt_pow_of_naturalText (n : Nat) : n < 10 ^ (naturalText n).length := by
  have bound := digitsValue_lt (naturalText n)
  rwa [digitsValue_naturalText] at bound

section Text
variable {m : Nat} {e : Int} (canonical : IsCanonical m e) (filled : 0 < m)
include canonical filled

theorem le_decimalExponent_iff (k : Int) : k ≤ decimalExponent m e ↔ 10 ^ k ≤ decimal m e := by
  have near := holds_shortestDecimal canonical filled
  have positive : 0 < (shortestDecimal m e).1 := by
    have unit : (0 : ℚ) < 2 ^ (surroundings m e).unit := by positivity
    have low : 0 < (surroundings m e).low := by
      have := @le_low_surroundings m e filled
      omega
    have above : (0 : ℚ) < (surroundings m e).low * 2 ^ (surroundings m e).unit := by
      have : (0 : ℚ) < (surroundings m e).low := by exact_mod_cast low
      positivity
    rcases Nat.eq_zero_or_pos (shortestDecimal m e).1 with none | positive
    · have := near.low
      rw [none, Nat.cast_zero, zero_mul] at this
      linarith
    · exact positive
  rw [decimalExponent, decimal]
  generalize shortestDecimal m e = chosen at positive
  obtain ⟨point, place⟩ := chosen
  dsimp only at positive ⊢
  have least : (10 : ℚ) ^ ((naturalText point).length - 1) ≤ point := by
    exact_mod_cast pow_le_of_naturalText positive
  have most : (point : ℚ) < 10 ^ (naturalText point).length := by
    exact_mod_cast lt_pow_of_naturalText point
  have several := List.length_pos_iff.mpr (naturalText_ne_nil point)
  have power : (0 : ℚ) < 10 ^ place := by positivity
  constructor
  · intro below
    calc (10 : ℚ) ^ k ≤ 10 ^ (((naturalText point).length - 1 : Nat) + place) :=
          zpow_le_zpow_right₀ (by norm_num) (by omega)
      _ = 10 ^ ((naturalText point).length - 1) * 10 ^ place := by
          rw [zpow_add₀ (by norm_num), zpow_natCast]
      _ ≤ point * 10 ^ place := by gcongr
  · intro reached
    by_contra above
    have less : (point : ℚ) * 10 ^ place < 10 ^ k :=
      calc (point : ℚ) * 10 ^ place < 10 ^ (naturalText point).length * 10 ^ place := by gcongr
        _ = 10 ^ (((naturalText point).length : Int) + place) := by
            rw [zpow_add₀ (by norm_num), zpow_natCast]
        _ ≤ 10 ^ k := zpow_le_zpow_right₀ (by norm_num) (by omega)
    linarith

/-- A power of ten that stands for a number, which is not below it, parts the numbers as it parts
    their decimals. -/
theorem pow_le_decimal_iff {m₀ : Nat} {e₀ k : Int} (canonical₀ : IsCanonical m₀ e₀)
    (filled₀ : 0 < m₀) (chosen : shortestDecimal m₀ e₀ = (1, k))
    (above : ((surroundings m₀ e₀).low : ℚ) * 2 ^ (surroundings m₀ e₀).unit < 10 ^ k)
    (reached : (10 : ℚ) ^ k ≤ m₀ * 2 ^ e₀) :
    10 ^ k ≤ decimal m e ↔ (10 : ℚ) ^ k ≤ m * 2 ^ e := by
  have near := holds_shortestDecimal canonical filled
  have own := holds_value filled e
  rcases lt_trichotomy ((m : ℚ) * 2 ^ e) (m₀ * 2 ^ e₀) with less | same | greater
  · have apart := high_le_low canonical canonical₀ less
    have decimalLess : decimal m e < 10 ^ k := lt_of_le_of_lt (near.high.trans apart) above
    have valueLess : (m : ℚ) * 2 ^ e < 10 ^ k := lt_of_le_of_lt (own.high.trans apart) above
    exact iff_of_false (not_le.mpr decimalLess) (not_le.mpr valueLess)
  · obtain ⟨rfl, rfl⟩ := eq_of_value canonical canonical₀ filled filled₀ same
    refine iff_of_true ?_ reached
    rw [decimal, chosen]
    simp
  · have apart := high_le_low canonical₀ canonical greater
    have own₀ := holds_value filled₀ e₀
    exact iff_of_true (reached.trans (own₀.high.trans (apart.trans near.low)))
      (reached.trans greater.le)

theorem mem_unsignedText_iff : 'e' ∈ unsignedText m e ↔
    (m : ℚ) * 2 ^ e < 10 ^ (-4 : Int) ∨ (10 : ℚ) ^ (16 : Int) ≤ m * 2 ^ e := by
  -- the numbers that a ten-thousandth and ten to the sixteenth read back to
  have least : (10 : ℚ) ^ (-4 : Int) ≤ decimal m e ↔ (10 : ℚ) ^ (-4 : Int) ≤ m * 2 ^ e := by
    have itself : IsCanonical 7378697629483821 (-66) := ⟨by decide, by decide, by decide, by decide⟩
    apply pow_le_decimal_iff canonical filled itself (by decide) (by decide)
    · norm_num [surroundings, precision]
    · norm_num
  have most : (10 : ℚ) ^ (16 : Int) ≤ decimal m e ↔ (10 : ℚ) ^ (16 : Int) ≤ m * 2 ^ e := by
    have itself : IsCanonical 5000000000000000 1 := ⟨by decide, by decide, by decide, by decide⟩
    apply pow_le_decimal_iff canonical filled itself (by decide) (by decide)
    · norm_num [surroundings, precision]
    · norm_num
  have laidOut : unsignedText m e = decimalText decimalForm
      (naturalText (shortestDecimal m e).1) (decimalExponent m e) := by
    rw [unsignedText, if_neg (by omega)]
    rfl
  rw [laidOut, mem_decimalText_iff fun c mem => isDigit_of_mem_naturalText mem, ← not_le, ← least,
    ← most, ← le_decimalExponent_iff canonical filled, ← le_decimalExponent_iff canonical filled]
  simp only [decimalForm]
  omega

end Text

end LReal
end StructuredText
