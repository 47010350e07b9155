import StructuredText.Proofs.Number.Numeral
import StructuredText.Proofs.Number.Shortest

/- An LREAL that is written without an exponent part is read back to it. -/
namespace StructuredText

theorem digitsValue_zeros_append (n : Nat) (t : Text) :
    digitsValue (List.replicate n '0' ++ t) = digitsValue t := by
  have zeros : digitsValue (List.replicate n '0') = 0 := by
    induction n with
    | zero => rfl
    | succ n ih =>
      rw [List.replicate_succ', digitsValue, List.foldl_concat, ← digitsValue, ih]
      decide
  rw [digitsValue_append, zeros, digitsValue]

theorem digitsValue_append_zeros (t : Text) (n : Nat) :
    digitsValue (t ++ List.replicate n '0') = digitsValue t * 10 ^ n := by
  induction n with
  | zero => simp
  | succ n ih =>
    rw [List.replicate_succ', ← List.append_assoc, digitsValue, List.foldl_concat, ← digitsValue,
      ih, pow_succ]
    have zero : (digitValue? '0').getD 0 = 0 := by decide
    rw [zero]
    ring

structure IsPointText (whole fraction t : Text) : Prop where
  text : t = whole ++ '.' :: fraction
  wholeFilled : whole ≠ []
  fractionFilled : fraction ≠ []
  digits : ∀ c ∈ whole ++ fraction, c.isDigit = true

def pointValue (whole fraction : Text) : ℚ :=
  digitsValue (whole ++ fraction) * 10 ^ (-(fraction.length : Int))

def withSign (negative : Bool) (t : Text) : Text := (if negative then ['-'] else []) ++ t

theorem IsPointText.numeral {whole fraction t : Text} (point : IsPointText whole fraction t)
    (negative : Bool) : numeral? (withSign negative t) = some ⟨negative, whole, some fraction⟩ := by
  have decimal (c : Char) (mem : c ∈ whole ++ fraction) : isDecimal c = true :=
    isDecimal_of_isDigit (point.digits c mem)
  have wholes : ∀ c ∈ whole, isDecimal c = true :=
    fun c mem => decimal c (List.mem_append_left _ mem)
  have stops : isDecimal '.' = false := by decide
  have taken : (whole ++ '.' :: fraction).takeWhile isDecimal = whole := by
    rw [List.takeWhile_append_of_pos wholes, List.takeWhile_cons_of_neg (by simp [stops]),
      List.append_nil]
  have left : (whole ++ '.' :: fraction).dropWhile isDecimal = '.' :: fraction := by
    rw [List.dropWhile_append_of_pos wholes, List.dropWhile_cons_of_neg (by simp [stops])]
  have fractions : fraction.all isDecimal = true := by
    rw [List.all_eq_true]
    exact fun c mem => decimal c (List.mem_append_right _ mem)
  have unsigned : unsignedNumeral? negative (whole ++ '.' :: fraction) =
      some ⟨negative, whole, some fraction⟩ := by
    have filled := List.isEmpty_eq_false_iff.mpr point.wholeFilled
    have filled' := List.isEmpty_eq_false_iff.mpr point.fractionFilled
    simp only [unsignedNumeral?, taken, left, filled, filled', fractions]
    rfl
  rw [point.text]
  cases negative with
  | true => exact unsigned
  | false =>
    obtain ⟨c, rest, rfl⟩ := List.exists_cons_of_ne_nil point.wholeFilled
    have sign : c ≠ '-' := (digit_facts (point.digits c (by simp))).2.2.1
    rw [← unsigned]
    exact if_neg sign

namespace LReal

section Layout
variable {form : DecimalForm} {digits : Text} (each : ∀ c ∈ digits, c.isDigit = true)
  (filled : digits ≠ []) {exponent : Int}
include each filled

theorem exists_decimalText (plain : 'e' ∉ decimalText form digits exponent) :
    ∃ whole fraction, IsPointText whole fraction (decimalText form digits exponent) ∧
      pointValue whole fraction =
        digitsValue digits * 10 ^ (exponent + 1 - (digits.length : Int)) := by
  have zeros (n : Nat) : ∀ c ∈ List.replicate n '0', c.isDigit = true := by
    intro c mem
    rw [List.eq_of_mem_replicate mem]
    rfl
  have length := List.length_pos_iff.mpr filled
  rw [decimalText] at plain ⊢
  split
  · split
    · next small =>
      refine ⟨['0'], List.replicate (-exponent - 1).toNat '0' ++ digits,
        ⟨rfl, by decide, by simp [filled], ?_⟩, ?_⟩
      · exact List.forall_mem_append.mpr ⟨of_all rfl, List.forall_mem_append.mpr ⟨zeros _, each⟩⟩
      · have value : digitsValue (['0'] ++ (List.replicate (-exponent - 1).toNat '0' ++ digits)) =
            digitsValue digits := by
          rw [← digitsValue_zeros_append (1 + (-exponent - 1).toNat) digits, List.replicate_add,
            List.append_assoc]
          rfl
        rw [pointValue, value, List.length_append, List.length_replicate]
        congr 2
        omega
    · next large =>
      dsimp only
      generalize places : exponent.toNat + 1 = whole
      generalize more : whole + 1 - digits.length = zeroCount
      have split := List.take_append_drop whole (digits ++ List.replicate zeroCount '0')
      refine ⟨_, _, ⟨rfl, ?_, ?_, ?_⟩, ?_⟩
      · rw [← List.length_pos_iff, List.length_take, List.length_append]
        omega
      · rw [← List.length_pos_iff, List.length_drop, List.length_append, List.length_replicate]
        omega
      · rw [split]
        exact List.forall_mem_append.mpr ⟨each, zeros _⟩
      · rw [pointValue, split, digitsValue_append_zeros, List.length_drop, List.length_append,
          List.length_replicate]
        push_cast
        rw [mul_assoc, ← zpow_natCast, ← zpow_add₀ (by norm_num)]
        congr 2
        omega
  · next other =>
    rw [if_neg other, exponentText] at plain
    simp at plain

end Layout

theorem ofDecimal_ratio (digits : Nat) (fraction : Text) :
    ((digits * 10 ^ (-(fraction.length : Int)).toNat : Nat) : ℚ) /
        ((10 ^ (- -(fraction.length : Int)).toNat : Nat) : ℚ) =
      digits * 10 ^ (-(fraction.length : Int)) := by
  have none : (-(fraction.length : Int)).toNat = 0 := by omega
  have all : (- -(fraction.length : Int)).toNat = fraction.length := by omega
  rw [none, all, zpow_neg, zpow_natCast]
  push_cast
  ring

section Text
variable {mantissa : Nat} {exponent : Int} (canonical : IsCanonical mantissa exponent)
include canonical

theorem literal_text (negative : Bool)
    (plain : 'e' ∉ (LReal.finite negative mantissa exponent).text) :
    ∃ whole fraction t, (LReal.finite negative mantissa exponent).text = withSign negative t ∧
      IsPointText whole fraction t ∧
      Numeral.literal? ⟨negative, whole, some fraction⟩ =
        some (.real (.finite negative mantissa exponent)) := by
  obtain ⟨whole, fraction, point, literal⟩ : ∃ whole fraction,
      IsPointText whole fraction (unsignedText mantissa exponent) ∧
      ofDecimal negative (digitsValue (whole ++ fraction)) (-fraction.length) =
        .finite negative mantissa exponent := by
    rw [LReal.text] at plain
    rw [unsignedText] at plain ⊢
    split
    · next zero =>
      have least : exponent = leastExponent := by
        have := canonical.full
        rw [precision] at this
        omega
      refine ⟨['0'], ['0'], ⟨rfl, by decide, by decide, of_all rfl⟩, ?_⟩
      rw [zero, least]
      cases negative <;> decide
    · next filled =>
      rw [if_neg filled] at plain
      have near := holds_shortestDecimal canonical (Nat.pos_of_ne_zero filled)
      generalize shortestDecimal mantissa exponent = decimal at near plain ⊢
      obtain ⟨digits, place⟩ := decimal
      dsimp only at near plain ⊢
      obtain ⟨whole, fraction, point, value⟩ :=
        exists_decimalText (fun c mem => isDigit_of_mem_naturalText mem)
          (naturalText_ne_nil digits) fun mem => plain (List.mem_append_right _ mem)
      refine ⟨whole, fraction, point, ?_⟩
      rw [digitsValue_naturalText] at value
      have same : place + (naturalText digits).length - 1 + 1 - (naturalText digits).length =
          place := by omega
      rw [same] at value
      rw [← value, pointValue, ← ofDecimal_ratio] at near
      exact ofRatio_eq (by positivity) canonical (Nat.pos_of_ne_zero filled) near negative
  refine ⟨whole, fraction, _, rfl, point, ?_⟩
  rw [Numeral.literal?]
  simp only [literal]

end Text
end LReal
end StructuredText
