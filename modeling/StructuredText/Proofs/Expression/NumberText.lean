import StructuredText.Proofs.Expression.Kept
import StructuredText.Proofs.Number.Magnitude

/- Which numbers come back from their own text.  Only the size of a number decides: below a
   ten-thousandth and from ten to the sixteenth on its text has an exponent part, and a text with an
   exponent part is read as a name. -/
namespace StructuredText

def Literal.HasPlainSize : Literal → Prop
  | .real number => number.value = 0 ∨
      (10 : ℚ) ^ (-4 : Int) ≤ |number.value| ∧ |number.value| < (10 : ℚ) ^ (16 : Int)
  | _ => True

namespace LReal
variable {negative : Bool} {m : Nat} {e : Int}

theorem abs_value : |(finite negative m e).value| = (m : ℚ) * 2 ^ e := by
  have size : (0 : ℚ) ≤ m * 2 ^ e := by positivity
  rw [value, cast_signed, mul_assoc, abs_mul, abs_of_nonneg size]
  cases negative <;> simp

theorem mem_text_iff (canonical : IsCanonical m e) : 'e' ∈ (finite negative m e).text ↔
    ¬ (Literal.real (.finite negative m e)).HasPlainSize := by
  have sign : 'e' ∉ if negative then ['-'] else [] := by cases negative <;> decide
  have unsigned : 'e' ∈ (finite negative m e).text ↔ 'e' ∈ unsignedText m e := by
    rw [text, List.mem_append]
    exact or_iff_right sign
  rw [unsigned, Literal.HasPlainSize, ← abs_eq_zero, abs_value]
  rcases Nat.eq_zero_or_pos m with rfl | filled
  · refine iff_of_false (by decide : 'e' ∉ "0.0".toList) (not_not.mpr (Or.inl ?_))
    simp
  · have positive : (m : ℚ) * 2 ^ e ≠ 0 := by positivity
    rw [mem_unsignedText_iff canonical filled, or_iff_right positive, not_and_or, not_le, not_lt]

end LReal

theorem hasPlainSize_iff {value : Literal} (read : IsReadLiteral value) :
    value.HasPlainSize ↔ value.isPositional = true := by
  cases read with
  | bool value => exact iff_of_true trivial rfl
  | int writable => exact iff_of_true trivial rfl
  | real canonical =>
    rw [Literal.isPositional, Bool.not_eq_true', ← Bool.not_eq_true, List.contains_iff_mem,
      LReal.mem_text_iff canonical, not_not]

section Exponent
variable {t : Text} (numeral : ∀ c ∈ t, isNumeralChar c = true)
include numeral

theorem not_mem_of_numeral {c : Char} (other : isNumeralChar c = false) : c ∉ t := by
  intro mem
  rw [numeral c mem] at other
  contradiction

theorem isUnbroken_of_numeral : IsUnbroken none t where
  balanced := by
    apply balanced_of_free
    intro c mem
    constructor <;> rintro rfl <;> exact not_mem_of_numeral numeral (by decide) mem
  unchained := by
    intro op
    cases found : cutAtTopWord? op.symbol none 0 t with
    | none => rfl
    | some cut =>
      have inside : ∀ c ∈ op.symbol, c ∈ t := by
        intro c mem
        rw [append_of_cutAtTopWord? found]
        simp [mem]
      cases op with
      | and => exact absurd (inside 'A' (by decide)) (not_mem_of_numeral numeral (by decide))
      | or => exact absurd (inside 'O' (by decide)) (not_mem_of_numeral numeral (by decide))
  incomparable := by
    intro op
    cases found : topLevelFrom op.symbol 0 t with
    | none => rfl
    | some n =>
      have inside : ∀ c ∈ op.symbol, c ∈ t := fun c mem =>
        List.mem_of_mem_drop ((prefix_of_topLevelFrom found).subset mem)
      have sign : op.symbol.any (! isNumeralChar ·) = true := by cases op <;> decide
      obtain ⟨c, mem, other⟩ := List.any_eq_true.mp sign
      exact absurd (inside c mem) (not_mem_of_numeral numeral (by simpa using other))

/-- A number with an exponent part is not broken down, nor taken for a number. -/
theorem isSoleText_of_exponent (exponent : 'e' ∈ t) : IsSoleText t where
  trimmed := by
    apply isTrimmed_of_solid (List.ne_nil_of_mem exponent)
    intro c mem
    have char := numeral c mem
    rw [isNumeralChar, Bool.or_eq_true] at char
    rcases char with digit | mark
    · exact isBlank_of_isAsciiWord (digit_facts digit).1
    · have marks : ∀ c ∈ "+-.einfa".toList, isBlank c = false := of_all rfl
      exact marks c (by simpa using mark)
  bare := by
    apply isEnclosed_of_head
    intro head
    exact not_mem_of_numeral numeral (by decide) (List.mem_of_mem_head? head)
  shape := by
    have noTruth (value : Bool) : t ≠ (Literal.bool value).text := by
      rintro rfl
      revert exponent
      cases value <;> decide
    exact Shape.ofStripped_of_tighter noTruth (numeral?_eq_none exponent (by decide))
      (negated?_of_letterFree (not_mem_of_numeral numeral (by decide)))
      ((isUnbroken_of_numeral numeral).tighter (Or.inl rfl))
      (not_mem_of_numeral numeral (by decide))

end Exponent

theorem isReadLiteral_of_read {levels : Nat} {t : Text} {value : Literal}
    (read : Expression.read levels t = .literal value) : IsReadLiteral value := by
  cases levels with
  | zero => contradiction
  | succ levels =>
    rw [Expression.read, Shape.ofText] at read
    have shape := Shape.of_ofStripped (stripParens t)
    generalize Shape.ofStripped (stripParens t) = found at shape read
    cases shape with
    | truth value =>
      obtain rfl := Expression.literal.inj read
      exact .bool _
    | @numeral n found =>
      cases literal : n.literal? with
      | none =>
        rw [literal] at read
        contradiction
      | some value =>
        rw [literal] at read
        obtain rfl := Expression.literal.inj read
        exact isReadLiteral_of_numeral literal
    | negation found => contradiction
    | @chain op first second rest found =>
      obtain ⟨start, last, split⟩ :=
        (List.eq_nil_or_concat' (second :: rest)).resolve_left (List.cons_ne_nil second rest)
      dsimp only at read
      rw [split, List.foldl_concat] at read
      contradiction
    | comparison found => contradiction
    | call positive unchained found => contradiction
    | word positive => contradiction

namespace Expression

/-- A literal that was read comes back from its text exactly if it has a plain size, and otherwise a
    name comes back that is spelled as its text. -/
theorem ofText_text_of_literal {t : Text} {value : Literal} (read : ofText t = .literal value) :
    ∃ s, (ofText t).text? = some s ∧ (value.HasPlainSize → ofText s = .literal value) ∧
      (¬ value.HasPlainSize → ofText s = .variable s) := by
  have literal := isReadLiteral_of_read read
  have writable : (Expression.literal value).isWritable = true := isWritable_of_isReadLiteral literal
  refine ⟨value.text, ?_, ?_, ?_⟩
  · rw [read, text?, if_pos writable]
    rfl
  · intro plain
    have stable := stable_of_isReadLiteral literal ((hasPlainSize_iff literal).mp plain)
      expressionLimit
    exact (readsBack stable).bare (Or.inl rfl)
  · intro other
    cases literal with
    | bool value => exact absurd trivial other
    | int writable => exact absurd trivial other
    | @real negative m e canonical =>
      have sole := isSoleText_of_exponent (LReal.numeral_text (.finite negative m e))
        ((LReal.mem_text_iff canonical).mpr other)
      have back := read_of_isSoleText sole (a := []) (b := []) (of_all rfl) (of_all rfl)
        expressionLimit
      rwa [List.nil_append, List.append_nil] at back

def signedDecimal : Literal := .real (.finite true 8690539905941504 (-46))

def hundredThousandth : Literal := .real (.finite false 5902958103587057 (-69))

theorem ofText_signedDecimal : ofText "-00123.50".toList = .literal signedDecimal := rfl

theorem ofText_hundredThousandth : ofText "0.00001".toList = .literal hundredThousandth := rfl

theorem hasPlainSize_signedDecimal : signedDecimal.HasPlainSize := by
  refine Or.inr ?_
  rw [LReal.abs_value]
  norm_num

theorem not_hasPlainSize_hundredThousandth : ¬ hundredThousandth.HasPlainSize := by
  rw [hundredThousandth, Literal.HasPlainSize, ← abs_eq_zero, LReal.abs_value]
  norm_num

theorem ofText_text_of_literal_sizes :
    ofText "-00123.50".toList = .literal signedDecimal ∧ signedDecimal.HasPlainSize ∧
      (∃ s, (ofText "-00123.50".toList).text? = some s ∧ ofText s = .literal signedDecimal) ∧
    ofText "0.00001".toList = .literal hundredThousandth ∧ ¬ hundredThousandth.HasPlainSize ∧
      ∃ s, (ofText "0.00001".toList).text? = some s ∧ ofText s = .variable s := by
  obtain ⟨s, written, back, -⟩ := ofText_text_of_literal ofText_signedDecimal
  obtain ⟨u, writtenTiny, -, name⟩ := ofText_text_of_literal ofText_hundredThousandth
  exact ⟨ofText_signedDecimal, hasPlainSize_signedDecimal,
    ⟨s, written, back hasPlainSize_signedDecimal⟩, ofText_hundredThousandth,
    not_hasPlainSize_hundredThousandth, u, writtenTiny, name not_hasPlainSize_hundredThousandth⟩

/-- Not every number comes back: the text of a hundred-thousandth is read as a name. -/
theorem ofText_text_hundredThousandth :
    ofText "0.00001".toList = .literal hundredThousandth ∧
      (ofText "0.00001".toList).text? = some "1e-05".toList ∧
      ofText "1e-05".toList = .variable "1e-05".toList := by
  refine ⟨ofText_hundredThousandth, ?_, rfl⟩
  rw [ofText_hundredThousandth, text?, if_pos (by decide)]
  decide

end Expression

end StructuredText
