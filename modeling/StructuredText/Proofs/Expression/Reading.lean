import Mathlib.Data.Nat.Digits.Defs
import StructuredText.Proofs.Expression.Operand
import StructuredText.Proofs.Expression.Parts
import StructuredText.Proofs.Expression.RoundTrip
import StructuredText.Proofs.Expression.Written
import StructuredText.Proofs.Number.PointText

/- What reading makes of any text: its literals, its characters, that it can be written. -/
namespace StructuredText
open Expression

theorem negated?_of_letterFree {t : Text} (letter : 'N' ∉ t) : negated? t = none := by
  rw [negated?]
  cases rest : after? "NOT".toList t with
  | none => rfl
  | some rest =>
    rw [after?_eq_some_iff.mp rest] at letter
    exact absurd (List.mem_append_left _ (by decide)) letter

theorem Shape.ofStripped_of_tighter {t : Text} (noTruth : ∀ value, t ≠ (Literal.bool value).text)
    (noNumeral : numeral? t = none) (positive : negated? t = none) (tighter : ∀ k, Tighter k t)
    (noCall : '(' ∉ t) : Shape.ofStripped t = .leaf (.variable t) := by
  have shape := Shape.of_ofStripped t
  generalize Shape.ofStripped t = found at shape ⊢
  cases shape with
  | truth value same => exact absurd same (noTruth value)
  | numeral found =>
    rw [noNumeral] at found
    contradiction
  | negation found =>
    rw [positive] at found
    contradiction
  | @chain op first second rest found =>
    have none := chain?_eq_none (tighter op.tightness)
    rw [chain?, found] at none
    contradiction
  | comparison found =>
    rw [findTopLevel?, List.drop_zero, topLevelFrom_eq_none (tighter 3)] at found
    contradiction
  | call positive unchained found =>
    obtain ⟨blanks, inner, call, -⟩ := exists_call found
    rw [call.whole] at noCall
    exact absurd (by simp [parenthesized]) noCall
  | word => rfl

section Numeral
variable {t : Text} {n : Numeral} (found : numeral? t = some n)
include found

theorem chars_of_numeral {c : Char} (mem : c ∈ t) : isDecimal c = true ∨ c = '-' ∨ c = '.' := by
  by_contra other
  simp only [not_or, Bool.not_eq_true] at other
  rw [numeral?_eq_none mem other] at found
  contradiction

theorem isPositive_of_numeral : IsPositive t := by
  have letter : 'N' ∉ t := by
    intro mem
    rcases chars_of_numeral found mem with decimal | sign | point
    · exact absurd decimal (by decide)
    · contradiction
    · contradiction
  refine ⟨negated?_of_letterFree letter, ?_⟩
  rintro rfl
  exact letter (by decide)

theorem isEnclosed_of_numeral : isEnclosed t = false := by
  apply isEnclosed_of_head
  intro head
  rcases chars_of_numeral found (List.mem_of_mem_head? head) with decimal | sign | point
  · exact absurd decimal (by decide)
  · contradiction
  · contradiction

theorem balanced_of_numeral : Balanced t := by
  apply balanced_of_free
  intro c mem
  constructor
  · rintro rfl
    have := chars_of_numeral found mem
    revert this
    decide
  · rintro rfl
    have := chars_of_numeral found mem
    revert this
    decide

theorem ofStripped_of_numeral :
    Shape.ofStripped t = .leaf (n.literal?.elim (.variable t) .literal) := by
  have noWord (s : Text) (missing : numeral? s = none) : t ≠ s := by
    rintro rfl
    rw [found] at missing
    contradiction
  rw [Shape.ofStripped, if_neg (noWord _ rfl), if_neg (noWord _ rfl), found]

end Numeral

theorem digitValue_le (c : Char) : (digitValue? c).getD 0 ≤ 9 := by
  rw [digitValue?]
  cases found : zeros.find? fun z => z ≤ c.toNat && c.toNat ≤ z + 9 with
  | none => exact Nat.zero_le 9
  | some z =>
    have range := List.find?_some found
    simp only [Bool.and_eq_true, decide_eq_true_eq] at range
    simp only [Option.map_some, Option.getD_some]
    omega

theorem digitsValue_lt (t : Text) : digitsValue t < 10 ^ t.length := by
  induction t using List.reverseRecOn with
  | nil => exact Nat.one_pos
  | append_singleton t c ih =>
    have digit := digitValue_le c
    rw [digitsValue, List.foldl_concat, ← digitsValue, List.length_append, List.length_singleton,
      Nat.pow_succ]
    omega

theorem isWritableInteger_digitsValue {t : Text} (short : t.length ≤ numeralLimit) :
    isWritableInteger (digitsValue t) = true := by
  have small : digitsValue t < 10 ^ numeralLimit :=
    Nat.lt_of_lt_of_le (digitsValue_lt t) (Nat.pow_le_pow_right (by decide) short)
  exact decide_eq_true (Nat.toDigits_length 10 _ _ (by decide) small)

inductive IsReadLiteral : Literal → Prop
  | bool (value : Bool) : IsReadLiteral (.bool value)
  | int {value : Int} (writable : isWritableInteger value = true) : IsReadLiteral (.int value)
  | real {negative : Bool} {mantissa : Nat} {exponent : Int}
    (canonical : LReal.IsCanonical mantissa exponent) :
    IsReadLiteral (.real (.finite negative mantissa exponent))

theorem isReadLiteral_of_numeral {n : Numeral} {value : Literal}
    (read : n.literal? = some value) : IsReadLiteral value := by
  rw [Numeral.literal?] at read
  split at read
  · obtain ⟨size, digits, rfl⟩ := Option.map_eq_some_iff.mp read
    rw [natural?] at digits
    split at digits
    · next short =>
      obtain rfl := Option.some.inj digits
      have writable := isWritableInteger_digitsValue short
      apply IsReadLiteral.int
      split
      · rwa [isWritableInteger, Int.natAbs_neg]
      · exact writable
    · contradiction
  · next fraction _ =>
    split at read
    · next sign mantissa exponent rounded =>
      obtain rfl := Option.some.inj read
      rw [LReal.ofDecimal] at rounded
      exact .real (LReal.isCanonical_of_ofRatio (by positivity) rounded).2
    · contradiction

theorem tighter_digits {t : Text} (filled : t ≠ []) (digits : ∀ c ∈ t, c.isDigit = true) (k : Nat) :
    Tighter k t := by
  apply tighter_word filled
  · intro c mem
    exact isWord_of_isAsciiWord (digit_facts (digits c mem)).1
  · intro op _ same
    obtain ⟨c, rest, eq, -⟩ := op.symbol_cons
    have digit := digits c (by simp [same, eq])
    cases op <;> obtain ⟨rfl, -⟩ := List.cons.inj eq <;> contradiction

theorem isLeafText_real {mantissa : Nat} {exponent : Int}
    (canonical : LReal.IsCanonical mantissa exponent) {negative : Bool}
    (plain : 'e' ∉ (LReal.finite negative mantissa exponent).text) :
    IsLeafText (LReal.finite negative mantissa exponent).text
      (.literal (.real (.finite negative mantissa exponent))) := by
  obtain ⟨whole, fraction, t, text, point, literal⟩ :=
    LReal.literal_text canonical negative plain
  have numeral := point.numeral negative
  obtain ⟨wholes, fractions⟩ := List.forall_mem_append.mp point.digits
  have unsigned (k : Nat) : Tighter k t := by
    rw [point.text]
    exact (tighter_digits point.wholeFilled wholes k).append rfl
      (.mark (by decide) (by decide) (by decide) (fun _ => rfl)
        (tighter_digits point.fractionFilled fractions k))
  have solid : ∀ c ∈ t, isBlank c = false := by
    have digit {c : Char} (digit : c.isDigit = true) : isBlank c = false :=
      isBlank_of_isAsciiWord (digit_facts digit).1
    rw [point.text]
    simp only [List.forall_mem_append, List.forall_mem_cons]
    exact ⟨fun c mem => digit (wholes c mem), by decide, fun c mem => digit (fractions c mem)⟩
  rw [text]
  refine ⟨?_, isEnclosed_of_numeral numeral, ?_, isPositive_of_numeral numeral, ?_⟩
  · apply isTrimmed_of_solid
    · rw [withSign, point.text]
      simp
    · rw [withSign, List.forall_mem_append]
      refine ⟨?_, solid⟩
      cases negative <;> exact of_all rfl
  · intro k
    cases negative with
    | false => exact unsigned k
    | true => exact .mark (by decide) (by decide) (by decide) (fun _ => rfl) (unsigned k)
  · rw [ofStripped_of_numeral numeral, literal]
    rfl

theorem chars_of_isReadLiteral {value : Literal} (read : IsReadLiteral value) :
    ∀ c ∈ value.text, isTextChar c = true ∨ c = '+' := by
  intro c mem
  cases read with
  | bool value =>
    have chars : ∀ c ∈ (Literal.bool value).text, isTextChar c = true := by
      cases value <;> exact of_all rfl
    exact Or.inl (chars c mem)
  | int writable => exact Or.inl (chars_integerText _ c mem)
  | @real negative mantissa exponent canonical =>
    have numeral := LReal.numeral_text (.finite negative mantissa exponent) c mem
    simp only [isNumeralChar, Bool.or_eq_true] at numeral
    rcases numeral with digit | mark
    · exact Or.inl (isTextChar_of_isAsciiWord (digit_facts digit).1)
    · have marks : ∀ c ∈ "+-.einfa".toList, isTextChar c = true ∨ c = '+' := of_all rfl
      exact marks c (by simpa using mark)

theorem isWritable_of_isReadLiteral {value : Literal} (read : IsReadLiteral value) :
    value.isWritable = true := by
  cases read with
  | bool value => rfl
  | int writable => exact writable
  | real canonical => rfl

structure IsDrawnFrom (e : Expression) (t : Text) : Prop where
  writable : e.isWritable = true
  chars : ∀ c ∈ e.text, isTextChar c = true ∨ c = '+' ∨ c ∈ t

namespace IsDrawnFrom
variable {e left right : Expression} {s t : Text}

theorem mono (drawn : IsDrawnFrom e s) (inside : ∀ c ∈ s, c ∈ t) : IsDrawnFrom e t where
  writable := drawn.writable
  chars := fun c mem => (drawn.chars c mem).imp_right (Or.imp_right (inside c))

theorem reference (inside : ∀ c ∈ s, c ∈ t) : IsDrawnFrom (.variable s) t where
  writable := rfl
  chars := fun c mem => Or.inr (Or.inr (inside c mem))

theorem literal {value : Literal} (read : IsReadLiteral value) :
    IsDrawnFrom (.literal value) t where
  writable := isWritable_of_isReadLiteral read
  chars := fun c mem => (chars_of_isReadLiteral read c mem).imp_right Or.inl

theorem shown (drawn : IsDrawnFrom e t) {u : Text} (shown : e.Shown u) :
    ∀ c ∈ u, isTextChar c = true ∨ c = '+' ∨ c ∈ t := by
  intro c mem
  rcases Expression.mem_of_shown shown mem with mem | char
  · exact drawn.chars c mem
  · exact Or.inl char

theorem operation (first : IsDrawnFrom left t) (second : IsDrawnFrom right t) {l r symbol : Text}
    (shownLeft : left.Shown l) (shownRight : right.Shown r)
    (signs : ∀ c ∈ symbol, isTextChar c = true) :
    ∀ c ∈ l ++ StructuredText.operation symbol r, isTextChar c = true ∨ c = '+' ∨ c ∈ t := by
  intro c mem
  rcases List.mem_append.mp mem with mem | mem
  · exact first.shown shownLeft c mem
  · rcases Expression.mem_operation signs mem with mem | char
    · exact second.shown shownRight c mem
    · exact Or.inl char

theorem negation (drawn : IsDrawnFrom e t) : IsDrawnFrom (.negation e) t where
  writable := drawn.writable
  chars := by
    have word : ∀ c ∈ "NOT ".toList, isTextChar c = true := of_all rfl
    rw [Expression.text_negation, List.forall_mem_append]
    exact ⟨fun c mem => Or.inl (word c mem), drawn.shown (e.shown_textAt (Nat.le_refl _))⟩

theorem connective (op : Connective) (first : IsDrawnFrom left t)
    (second : IsDrawnFrom right t) : IsDrawnFrom (.connective op left right) t where
  writable := by simp [Expression.isWritable, first.writable, second.writable]
  chars := by
    have below : op.tightness + 1 ≤ operandTightness := by cases op <;> decide
    rw [Expression.text_connective]
    apply first.operation second (left.shown_leftText (Nat.le_of_succ_le below))
      (right.shown_textAt below)
    cases op <;> exact of_all rfl

theorem comparison (op : Comparison) (first : IsDrawnFrom left t)
    (second : IsDrawnFrom right t) : IsDrawnFrom (.comparison op left right) t where
  writable := by simp [Expression.isWritable, first.writable, second.writable]
  chars := by
    rw [Expression.text_comparison]
    apply first.operation second (left.shown_leftText (by decide)) (right.shown_textAt (by decide))
    cases op <;> exact of_all rfl

theorem chain {op : Connective} {rest : List Expression} (each : ∀ x ∈ rest, IsDrawnFrom x t)
    (first : IsDrawnFrom e t) : IsDrawnFrom (rest.foldl (.connective op) e) t := by
  induction rest generalizing e with
  | nil => exact first
  | cons x rest ih =>
    exact ih (fun y mem => each y (List.mem_cons_of_mem x mem))
      (first.connective op (each x List.mem_cons_self))

theorem call {name inner : Text} {arguments : List Expression} (named : ∀ c ∈ name, c ∈ t)
    (inside : ∀ c ∈ inner, c ∈ t) (each : ∀ x ∈ arguments, IsDrawnFrom x inner)
    (comma : 2 ≤ arguments.length → ',' ∈ inner) : IsDrawnFrom (.call name arguments) t where
  writable := by
    rw [Expression.isWritable, Expression.areWritable_eq_all, List.all_eq_true]
    exact fun x mem => (each x mem).writable
  chars := by
    intro c mem
    rw [Expression.text_call] at mem
    simp only [parenthesized, List.mem_append, List.mem_cons, List.not_mem_nil, or_false] at mem
    rcases mem with mem | rfl | mem | rfl
    · exact Or.inr (Or.inr (named c mem))
    · exact Or.inl rfl
    · rcases mem_intercalate mem with ⟨u, shown, mem⟩ | ⟨separator, several⟩
      · obtain ⟨x, argument, rfl⟩ := List.mem_map.mp shown
        exact ((each x argument).mono inside).chars c mem
      · rw [List.length_map] at several
        have marks : ∀ c ∈ ", ".toList, c = ',' ∨ isTextChar c = true := of_all rfl
        rcases marks c separator with rfl | char
        · exact Or.inr (Or.inr (inside ',' (comma several)))
        · exact Or.inl char
    · exact Or.inl rfl

end IsDrawnFrom

theorem IsCallText.isDrawnFrom {t name blanks inner : Text} (call : IsCallText t name blanks inner)
    {levels : Nat}
    (each : ∀ u ∈ argumentTexts inner, IsDrawnFrom (Expression.read levels u) u) :
    IsDrawnFrom (.call name ((argumentTexts inner).map (Expression.read levels))) t := by
  have named : ∀ c ∈ name, c ∈ t := by
    intro c mem
    rw [call.whole]
    simp [mem]
  have inside : ∀ c ∈ inner, c ∈ t := by
    intro c mem
    rw [call.whole]
    simp [parenthesized, mem]
  refine .call named inside (fun x read => ?_) fun several => ?_
  · obtain ⟨u, mem, rfl⟩ := List.mem_map.mp read
    exact (each u mem).mono fun c => mem_of_mem_argument mem
  · rw [List.length_map] at several
    exact comma_mem_of_arguments several

theorem mem_of_mem_trim {t : Text} {c : Char} (mem : c ∈ trim t) : c ∈ t :=
  (isCore_trim t).inside.subset mem

theorem isDrawnFrom_read (levels : Nat) (t : Text) :
    IsDrawnFrom (Expression.read levels t) t := by
  induction levels generalizing t with
  | zero => exact .reference fun c mem => mem_of_mem_trim mem
  | succ levels ih =>
    have core := isCore_stripParens t
    rw [Expression.read, Shape.ofText]
    generalize stripParens t = s at core
    have shape := Shape.of_ofStripped s
    generalize Shape.ofStripped s = read at shape
    suffices drawn : IsDrawnFrom _ s from drawn.mono fun c mem => core.inside.subset mem
    cases shape with
    | truth value => exact .literal (.bool value)
    | @numeral n found =>
      cases literal : n.literal? with
      | none => exact .reference fun _ mem => mem
      | some value => exact .literal (isReadLiteral_of_numeral literal)
    | negation found => exact ((ih _).mono fun c => (joins_negation found).mem (by simp)).negation
    | @chain op first second rest found =>
      have part : ∀ u ∈ first :: second :: rest, IsDrawnFrom (Expression.read levels u) s :=
        fun u mem => (ih u).mono fun c => (joins_chain found).mem mem
      dsimp only
      rw [← List.foldl_map]
      refine .chain (fun x read => ?_) (part first (by simp))
      obtain ⟨u, mem, rfl⟩ := List.mem_map.mp read
      exact part u (List.mem_cons_of_mem first mem)
    | comparison found =>
      have joins := joins_comparison found
      exact .comparison _ ((ih _).mono fun c => joins.mem (by simp))
        ((ih _).mono fun c => joins.mem (by simp))
    | @call name arguments positive unchained found =>
      obtain ⟨blanks, inner, call, rfl⟩ := exists_call found
      exact call.isDrawnFrom fun u _ => ih u
    | word => exact .reference fun _ mem => mem

end StructuredText
