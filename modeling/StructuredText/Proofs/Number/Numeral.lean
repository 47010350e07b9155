import Mathlib.Data.List.TakeWhile
import StructuredText.Expression.Writing
import StructuredText.Expression.Shape
import StructuredText.Proofs.Text.Boundary

/- The written numeral of an integer reads back to it. -/
namespace StructuredText

theorem digit_facts {c : Char} (digit : c.isDigit = true) :
    isAsciiWord c = true ∧ digitValue? c = some (c.toNat - 48) ∧ c ≠ '-' ∧ c.isAlpha = false := by
  have word : isAsciiWord c = true := by simp [isAsciiWord, Char.isAlphanum, digit]
  have facts := of_ascii (fun c => c.isDigit = true → digitValue? c = some (c.toNat - 48) ∧
    c ≠ '-' ∧ c.isAlpha = false) (by decide) (toNat_lt_of_isAsciiWord word)
  exact ⟨word, facts digit⟩

theorem isDecimal_of_isDigit {c : Char} (digit : c.isDigit = true) : isDecimal c = true := by
  rw [isDecimal, (digit_facts digit).2.1]
  rfl

theorem isDigit_of_mem_naturalText {n : Nat} {c : Char} (mem : c ∈ naturalText n) :
    c.isDigit = true :=
  Nat.isDigit_of_mem_toDigits (by decide) (by decide) mem

theorem naturalText_ne_nil (n : Nat) : naturalText n ≠ [] := Nat.toDigits_ne_nil

theorem digitsValue_eq_ofDigitChars {t : Text} (digits : ∀ c ∈ t, c.isDigit = true) :
    digitsValue t = Nat.ofDigitChars 10 t 0 := by
  have from_any (n : Nat) : t.foldl (fun n c => 10 * n + (digitValue? c).getD 0) n =
      Nat.ofDigitChars 10 t n := by
    induction t generalizing n with
    | nil => rfl
    | cons c t ih =>
      rw [List.foldl_cons, ih (fun d mem => digits d (by simp [mem])), Nat.ofDigitChars_cons,
        (digit_facts (digits c (by simp))).2.1]
      rfl
  exact from_any 0

theorem digitsValue_naturalText (n : Nat) : digitsValue (naturalText n) = n := by
  rw [digitsValue_eq_ofDigitChars fun c mem => isDigit_of_mem_naturalText mem, naturalText,
    Nat.ofDigitChars_ten_toDigits]

theorem naturalText_injective {n k : Nat} (same : naturalText n = naturalText k) : n = k := by
  rw [← digitsValue_naturalText n, same, digitsValue_naturalText]

theorem unsignedNumeral_naturalText (negative : Bool) (n : Nat) :
    unsignedNumeral? negative (naturalText n) = some ⟨negative, naturalText n, none⟩ := by
  have decimal : ∀ c ∈ naturalText n, isDecimal c = true :=
    fun c mem => isDecimal_of_isDigit (isDigit_of_mem_naturalText mem)
  have whole : (naturalText n).takeWhile isDecimal = naturalText n :=
    List.takeWhile_eq_self_iff.mpr decimal
  have rest : (naturalText n).dropWhile isDecimal = [] := List.dropWhile_eq_nil_iff.mpr decimal
  have filled : (naturalText n).isEmpty = false := by simpa using naturalText_ne_nil n
  simp only [unsignedNumeral?, whole, rest, filled]
  rfl

theorem numeral_integerText {value : Int} (writable : isWritableInteger value = true) :
    ∃ n, numeral? (integerText value) = some n ∧ n.literal? = some (.int value) := by
  have fits : (naturalText value.natAbs).length ≤ numeralLimit := of_decide_eq_true writable
  have back : natural? (naturalText value.natAbs) = some value.natAbs := by
    rw [natural?, if_pos fits, digitsValue_naturalText]
  cases value with
  | ofNat n =>
    refine ⟨⟨false, naturalText n, none⟩, ?_, ?_⟩
    · rw [integerText]
      cases text : naturalText n with
      | nil => exact absurd text (naturalText_ne_nil n)
      | cons c t =>
        have digit := isDigit_of_mem_naturalText (n := n) (c := c) (by simp [text])
        rw [numeral?, if_neg (digit_facts digit).2.2.1, ← text, unsignedNumeral_naturalText]
    · simp only [Numeral.literal?]
      rw [show naturalText n = naturalText (Int.ofNat n).natAbs from rfl, back]
      rfl
  | negSucc n =>
    refine ⟨⟨true, naturalText (n + 1), none⟩, ?_, ?_⟩
    · rw [integerText, numeral?, if_pos rfl, unsignedNumeral_naturalText]
    · simp only [Numeral.literal?]
      rw [show naturalText (n + 1) = naturalText (Int.negSucc n).natAbs from rfl, back]
      rfl

end StructuredText
