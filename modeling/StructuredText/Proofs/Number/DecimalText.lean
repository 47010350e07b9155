import StructuredText.Number.Decimal
import StructuredText.Proofs.Number.Numeral

/- The characters of a number's decimal text. -/
namespace StructuredText

def isNumeralChar (c : Char) : Bool := c.isDigit || "+-.einfa".toList.contains c

theorem numeral_naturalText (n : Nat) : ∀ c ∈ naturalText n, isNumeralChar c = true := by
  intro c mem
  rw [isNumeralChar, isDigit_of_mem_naturalText mem, Bool.true_or]

theorem numeral_replicate (n : Nat) : ∀ c ∈ List.replicate n '0', isNumeralChar c = true := by
  intro c mem
  rw [List.eq_of_mem_replicate mem]
  rfl

theorem numeral_exponentText (form : LReal.DecimalForm) (exponent : Int) :
    ∀ c ∈ LReal.exponentText form exponent, isNumeralChar c = true := by
  rw [LReal.exponentText]
  simp only [List.forall_mem_cons, List.forall_mem_append]
  refine ⟨rfl, ?_, numeral_replicate _, numeral_naturalText _⟩
  split <;> rfl

theorem numeral_decimalText (form : LReal.DecimalForm) {digits : Text}
    (numeral : ∀ c ∈ digits, isNumeralChar c = true) (exponent : Int) :
    ∀ c ∈ LReal.decimalText form digits exponent, isNumeralChar c = true := by
  have zero : ∀ c ∈ "0.".toList, isNumeralChar c = true := of_all rfl
  have dropped (n : Nat) : ∀ c ∈ digits.drop n, isNumeralChar c = true :=
    fun c mem => numeral c (List.mem_of_mem_drop mem)
  have padded (n : Nat) : ∀ c ∈ digits ++ List.replicate n '0', isNumeralChar c = true :=
    List.forall_mem_append.mpr ⟨numeral, numeral_replicate n⟩
  rw [LReal.decimalText]
  split
  · split
    · rw [List.forall_mem_append, List.forall_mem_append]
      exact ⟨⟨zero, numeral_replicate _⟩, numeral⟩
    · dsimp only
      rw [List.forall_mem_append, List.forall_mem_cons]
      exact ⟨fun c mem => padded _ c (List.mem_of_mem_take mem), rfl,
        fun c mem => padded _ c (List.mem_of_mem_drop mem)⟩
  · dsimp only
    rw [List.forall_mem_append, List.forall_mem_append]
    refine ⟨⟨fun c mem => numeral c (List.mem_of_mem_take mem), ?_⟩, numeral_exponentText _ _⟩
    split
    · exact List.forall_mem_cons.mpr ⟨rfl, dropped 1⟩
    · exact of_all rfl

theorem LReal.numeral_text (r : LReal) : ∀ c ∈ r.text, isNumeralChar c = true := by
  cases r with
  | finite negative mantissa exponent =>
    rw [LReal.text, List.forall_mem_append]
    constructor
    · cases negative <;> exact of_all rfl
    · rw [LReal.unsignedText]
      split
      · exact of_all rfl
      · exact numeral_decimalText _ (numeral_naturalText _) _
  | infinite negative => cases negative <;> exact of_all rfl
  | nan => exact of_all rfl

theorem LReal.text_ne_nil (r : LReal) : r.text ≠ [] := by
  cases r with
  | finite negative mantissa exponent =>
    have laidOut (digits : Text) (exponent : Int) :
        LReal.decimalText LReal.decimalForm digits exponent ≠ [] := by
      rw [LReal.decimalText]
      split
      · split <;> simp
      · simp [LReal.exponentText]
    rw [LReal.text, LReal.unsignedText, ne_eq, List.append_eq_nil_iff, not_and]
    intro _
    split
    · decide
    · exact laidOut _ _
  | infinite negative => cases negative <;> decide
  | nan => decide

end StructuredText
