import StructuredText.Proofs.Number.DecimalText
import StructuredText.Proofs.Pou.Ordinary
import StructuredText.Proofs.Text.Words

/- What the text of an ordinary expression is made of: code characters, parentheses that match, and
   words none of which begins like an end. -/
namespace StructuredText
open Expression

def isWrittenChar (c : Char) : Bool := isTextChar c || c = ',' || c = '+'

structure IsWrittenCode (t : Text) : Prop where
  trimmed : IsTrimmed t
  chars : ∀ c ∈ t, isWrittenChar c = true
  balanced : Balanced t
  open_ : ∀ w ∈ wordsOf t, isOpenWord w = true

theorem isWrittenChar_of_isAsciiWord {c : Char} (word : isAsciiWord c = true) :
    isWrittenChar c = true := by
  rw [isWrittenChar, isTextChar_of_isAsciiWord word, Bool.true_or, Bool.true_or]

theorem isOpenWord_of_free {w : Text} (free : '_' ∉ w) : isOpenWord w = true := by
  rw [isOpenWord, Bool.not_eq_true', ← Bool.not_eq_true, List.isPrefixOf_iff_prefix]
  exact fun start => free (start.mem (by decide))

theorem isWrittenCode_of_free {t : Text} (nonempty : t ≠ [])
    (chars : ∀ c ∈ t, isWrittenChar c = true ∧ isBlank c = false ∧ c ≠ '(' ∧ c ≠ ')' ∧ c ≠ '_') :
    IsWrittenCode t where
  trimmed := isTrimmed_of_solid nonempty fun c mem => (chars c mem).2.1
  chars := fun c mem => (chars c mem).1
  balanced := balanced_of_free fun c mem => ⟨(chars c mem).2.2.1, (chars c mem).2.2.2.1⟩
  open_ := fun _ mem => isOpenWord_of_free fun inside =>
    (chars '_' (mem_of_mem_wordsOf mem inside)).2.2.2.2 rfl

theorem OrdinaryWord.isWrittenCode {w : Text} (word : OrdinaryWord w) : IsWrittenCode w where
  trimmed := word.isTrimmed
  chars := fun c mem => isWrittenChar_of_isAsciiWord (word.letters c mem)
  balanced := balanced_of_free fun c mem => paren_of_isWord (word.isWord c mem)
  open_ := by
    intro v mem
    rw [wordsOf_letters word.isWord, List.mem_singleton] at mem
    rw [mem]
    exact word.isOpenWord

namespace IsWrittenCode
variable {s t : Text}

theorem append (left : IsWrittenCode s) (right : IsWrittenCode t) {c : Char}
    (written : isWrittenChar c = true) (other : isWord c = false) (opens : c ≠ '(')
    (closes : c ≠ ')') : IsWrittenCode (s ++ c :: t) where
  trimmed := by
    have joined := left.trimmed.between right.trimmed [c]
    rwa [List.append_assoc] at joined
  chars := by
    rw [List.forall_mem_append, List.forall_mem_cons]
    exact ⟨left.chars, written, right.chars⟩
  balanced := left.balanced.append (.char opens closes right.balanced)
  open_ := by
    rw [wordsOf_append other, List.forall_mem_append]
    exact ⟨left.open_, right.open_⟩

theorem parenthesized (inner : IsWrittenCode t) : IsWrittenCode (parenthesized t) where
  trimmed := isTrimmed_parenthesized t
  chars := by
    rw [StructuredText.parenthesized, List.forall_mem_cons, List.forall_mem_append]
    exact ⟨by decide, inner.chars, of_all rfl⟩
  balanced := balanced_parenthesized inner.balanced
  open_ := by
    rw [StructuredText.parenthesized, wordsOf_cons (by decide), wordsOf_append (by decide),
      List.forall_mem_cons, List.forall_mem_append]
    exact ⟨rfl, inner.open_, by decide⟩

theorem call (name : IsWrittenCode s) {arguments : List Text}
    (inner : ∀ t ∈ arguments, IsWrittenCode t) :
    IsWrittenCode (s ++ StructuredText.parenthesized (", ".toList.intercalate arguments)) where
  trimmed := name.trimmed.append (isTrimmed_parenthesized _)
  chars := by
    rw [StructuredText.parenthesized, List.forall_mem_append, List.forall_mem_cons,
      List.forall_mem_append]
    refine ⟨name.chars, by decide, ?_, of_all rfl⟩
    intro c mem
    rcases mem_intercalate mem with ⟨t, inside, mem⟩ | ⟨separates, -⟩
    · exact (inner t inside).chars c mem
    · have signs : ∀ d ∈ ", ".toList, isWrittenChar d = true := of_all rfl
      exact signs c separates
  balanced := by
    have separator : Balanced ", ".toList := balanced_of_free (of_all rfl)
    exact name.balanced.append (balanced_parenthesized
      (balanced_intercalate separator fun t mem => (inner t mem).balanced))
  open_ := by
    have words : ∀ w ∈ wordsOf (", ".toList.intercalate arguments), isOpenWord w = true := by
      cases arguments with
      | nil => decide
      | cons t rest =>
        rw [intercalate_cons]
        obtain ⟨first, more⟩ := List.forall_mem_cons.mp inner
        clear inner
        induction rest generalizing t with
        | nil =>
          rw [List.flatMap_nil, List.append_nil]
          exact first.open_
        | cons u rest ih =>
          obtain ⟨second, more⟩ := List.forall_mem_cons.mp more
          have cut : t ++ (u :: rest).flatMap (", ".toList ++ ·) =
              t ++ ',' :: ' ' :: (u ++ rest.flatMap (", ".toList ++ ·)) := by simp
          rw [cut, wordsOf_append (by decide), wordsOf_cons (by decide), List.forall_mem_append,
            List.forall_mem_cons]
          exact ⟨first.open_, rfl, ih u second more⟩
    rw [StructuredText.parenthesized, wordsOf_append (by decide), wordsOf_append (by decide),
      List.forall_mem_append, List.forall_mem_append]
    exact ⟨name.open_, words, by decide⟩

end IsWrittenCode

theorem written_of_isNumeralChar {c : Char} (numeral : isNumeralChar c = true) :
    isWrittenChar c = true ∧ isBlank c = false ∧ c ≠ '(' ∧ c ≠ ')' ∧ c ≠ '_' := by
  have ascii : c.toNat < 128 := by
    rw [isNumeralChar, Bool.or_eq_true] at numeral
    rcases numeral with digit | letter
    · exact toNat_lt_of_isAsciiWord (digit_facts digit).1
    · have small : ∀ d ∈ "+-.einfa".toList, d.toNat < 128 := of_all rfl
      exact small c (by simpa using letter)
  exact of_ascii (fun c => isNumeralChar c = true →
    isWrittenChar c = true ∧ isBlank c = false ∧ c ≠ '(' ∧ c ≠ ')' ∧ c ≠ '_') (by decide)
    ascii numeral

namespace Expression

theorem isWrittenCode_literal {value : Literal} (ordinary : value.isOrdinary = true) :
    IsWrittenCode value.text := by
  cases value with
  | bool value =>
    cases value
    · exact isWrittenCode_of_free (by decide) (of_all (by decide))
    · exact isWrittenCode_of_free (by decide) (of_all (by decide))
  | int value =>
    rw [Literal.text]
    cases value with
    | ofNat n =>
      exact isWrittenCode_of_free (naturalText_ne_nil n)
        fun c mem => written_of_isNumeralChar (numeral_naturalText n c mem)
    | negSucc n =>
      have numeral : ∀ c ∈ '-' :: naturalText (n + 1), isNumeralChar c = true :=
        List.forall_mem_cons.mpr ⟨rfl, numeral_naturalText (n + 1)⟩
      exact isWrittenCode_of_free (List.cons_ne_nil _ _)
        fun c mem => written_of_isNumeralChar (numeral c mem)
  | real value =>
    exact isWrittenCode_of_free (LReal.text_ne_nil value)
      fun c mem => written_of_isNumeralChar (LReal.numeral_text value c mem)
  | string value => contradiction

theorem isWrittenCode_name {name : Text} (ordinary : isOrdinaryName name = true) :
    IsWrittenCode name := by
  obtain ⟨w, rest, rfl, word, words⟩ := parts_of_isOrdinaryName ordinary
  clear ordinary
  induction rest generalizing w with
  | nil =>
    rw [List.flatMap_nil, List.append_nil]
    exact word.isWrittenCode
  | cons v rest ih =>
    obtain ⟨next, more⟩ := List.forall_mem_cons.mp words
    exact word.isWrittenCode.append (ih v next more) rfl (by decide) (by decide) (by decide)

theorem isWrittenCode_shown {e : Expression} (code : IsWrittenCode e.text) {t : Text}
    (shown : e.Shown t) : IsWrittenCode t := by
  rcases shown with rfl | ⟨-, rfl⟩
  · exact code
  · exact code.parenthesized

theorem isWrittenCode_operation {left right symbol : Text} (first : IsWrittenCode left)
    (second : IsWrittenCode right) (chars : ∀ c ∈ symbol, isWrittenChar c = true)
    (free : ∀ c ∈ symbol, isBlank c = false ∧ c ≠ '(' ∧ c ≠ ')' ∧ c ≠ '_') (filled : symbol ≠ []) :
    IsWrittenCode (left ++ operation symbol right) := by
  have operator : IsWrittenCode symbol :=
    isWrittenCode_of_free filled fun c mem => ⟨chars c mem, free c mem⟩
  exact first.append (operator.append second rfl (by decide) (by decide) (by decide)) rfl
    (by decide) (by decide) (by decide)

theorem isWrittenCode_text {e : Expression} (ordinary : e.isOrdinary = true) :
    IsWrittenCode e.text := by
  induction e with
  | literal value => exact isWrittenCode_literal ordinary
  | reference name => exact isWrittenCode_name ordinary
  | negation operand ih =>
    have word : IsWrittenCode "NOT".toList :=
      isWrittenCode_of_free (by decide) (of_all (by decide))
    have inner := isWrittenCode_shown (ih ordinary) (operand.shown_textAt (Nat.le_refl _))
    rw [text_negation]
    exact word.append inner rfl (by decide) (by decide) (by decide)
  | connective op left right ihl ihr =>
    have bound : op.tightness + 1 ≤ operandTightness := by cases op <;> decide
    simp only [isOrdinary, Bool.and_eq_true] at ordinary
    rw [text_connective]
    apply isWrittenCode_operation
    · exact isWrittenCode_shown (ihl ordinary.1) (left.shown_leftText (by omega))
    · exact isWrittenCode_shown (ihr ordinary.2) (right.shown_textAt bound)
    · cases op <;> exact of_all rfl
    · cases op <;> exact of_all (by decide)
    · cases op <;> decide
  | comparison op left right ihl ihr =>
    simp only [isOrdinary, Bool.and_eq_true] at ordinary
    rw [text_comparison]
    apply isWrittenCode_operation
    · exact isWrittenCode_shown (ihl ordinary.1) (left.shown_leftText (by decide))
    · exact isWrittenCode_shown (ihr ordinary.2) (right.shown_textAt (by decide))
    · cases op <;> exact of_all rfl
    · cases op <;> exact of_all (by decide)
    · cases op <;> decide
  | call name arguments ih =>
    simp only [isOrdinary, Bool.and_eq_true, areOrdinary_iff] at ordinary
    rw [text_call]
    apply (ordinaryWord_of_isOrdinaryWord ordinary.1).isWrittenCode.call
    intro t mem
    obtain ⟨e, inside, rfl⟩ := List.mem_map.mp mem
    exact ih e inside (ordinary.2 e inside)

theorem isWritable_of_isOrdinary {e : Expression} (ordinary : e.isOrdinary = true) :
    e.isWritable = true := by
  induction e with
  | literal value =>
    cases value with
    | int value => exact ordinary
    | _ => rfl
  | reference name => rfl
  | negation operand ih => exact ih ordinary
  | connective op left right ihl ihr =>
    simp only [isOrdinary, Bool.and_eq_true] at ordinary
    rw [isWritable, ihl ordinary.1, ihr ordinary.2, Bool.and_self]
  | comparison op left right ihl ihr =>
    simp only [isOrdinary, Bool.and_eq_true] at ordinary
    rw [isWritable, ihl ordinary.1, ihr ordinary.2, Bool.and_self]
  | call name arguments ih =>
    simp only [isOrdinary, Bool.and_eq_true, areOrdinary_iff] at ordinary
    rw [isWritable, areWritable_eq_all, List.all_eq_true]
    exact fun e mem => ih e mem (ordinary.2 e mem)

theorem text?_of_isOrdinary {e : Expression} (ordinary : e.isOrdinary = true) :
    e.text? = some e.text := by
  rw [text?, if_pos (isWritable_of_isOrdinary ordinary)]

end Expression
end StructuredText
