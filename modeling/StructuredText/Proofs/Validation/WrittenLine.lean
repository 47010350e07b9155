import StructuredText.Proofs.Pou.Declaration
import StructuredText.Proofs.Validation.Assignment

/- Lines as they are written for ordinary statements: each is read as it is, and what is found in it
   is neither an error nor a missing semicolon. -/
namespace StructuredText

def IsCodePlace (top : Option Construct) : Prop :=
  top ≠ some .declarations ∧ top ≠ some .caseBlock

section Checks
variable {line : Line}

theorem checkSemicolon_eq_nil
    (complete : isExempt line.text = true ∨ line.text.getLast? = some ';') :
    checkSemicolon line = [] := by
  rw [checkSemicolon, needsSemicolon]
  rcases complete with exempt | ends
  · simp [exempt]
  · simp [ends]

theorem isHarmless_of_mem_checkCall (balanced : Balanced line.text) {f : Finding}
    (mem : f ∈ checkCall line) : f.IsHarmless := by
  cases mem_checkCall.mp mem with
  | parens _ _ unequal =>
    rw [hasEqualParens_of_balanced balanced] at unequal
    contradiction
  | positional => exact ⟨Severity.noConfusion, Problem.noConfusion⟩

theorem checkAssignment_eq_nil {inCase : Bool} (missing : ¬ ":=".toList <:+: line.text) :
    checkAssignment inCase line = [] := by
  have none (start : Nat) : findTopLevel? ":=".toList line.text start = none := by
    have behind : ¬ ":=".toList <:+: line.text.drop start :=
      fun inside => missing (inside.trans (List.drop_suffix _ _).isInfix)
    rw [findTopLevel?, topLevelFrom_of_not_infix behind]
    rfl
  simp only [checkAssignment, none]
  split <;> rfl

end Checks

section Fine
variable {extra : List Text} {top : Option Construct} {t : Text}

theorem isFine_code (place : IsCodePlace top)
    (complete : isExempt t = true ∨ t.getLast? = some ';') (balanced : Balanced t)
    (assignment : ∀ line : Line, line.text = t → checkAssignment false line = []) :
    IsFine extra top t where
  semicolon := by
    rintro line rfl f mem
    rw [checkSemicolon_eq_nil complete] at mem
    contradiction
  declaration := fun inside => absurd inside place.1
  assignment := by
    rintro - line same f mem
    rw [decide_eq_false place.2, assignment line same] at mem
    contradiction
  call := by
    rintro - line rfl f mem
    exact isHarmless_of_mem_checkCall balanced mem

theorem isFine_of_missing (place : IsCodePlace top)
    (complete : isExempt t = true ∨ t.getLast? = some ';') (balanced : Balanced t)
    (missing : ¬ ":=".toList <:+: t) : IsFine extra top t :=
  isFine_code place complete balanced fun line same =>
    checkAssignment_eq_nil (by rw [same]; exact missing)

theorem isFine_frame (place : IsCodePlace top) (exempt : isExempt t = true)
    (free : ∀ c ∈ t, c ≠ '(' ∧ c ≠ ')' ∧ c ≠ ':') : IsFine extra top t :=
  isFine_of_missing place (Or.inl exempt)
    (balanced_of_free fun c mem => ⟨(free c mem).1, (free c mem).2.1⟩)
    fun inside => (free ':' (inside.subset List.mem_cons_self)).2.2 rfl

theorem isExempt_word {w : Text} (listed : w ∈ exemptWords) {rest : Text}
    (ends : atWordEnd rest = true) : isExempt (w ++ rest) = true := by
  have capital : ∀ w ∈ exemptWords, ∀ c ∈ w, fold c = c := of_all_words (by decide)
  have starts : startsFoldedWord w (w ++ rest) = true := by
    rw [startsFoldedWord, startsFolded_self w rest (capital w listed), List.drop_left, ends]
    rfl
  rw [isExempt, Bool.or_eq_true, List.any_eq_true]
  exact Or.inr ⟨w, listed, starts⟩

end Fine

structure IsPassed (extra : List Text) (place : Option Construct → Prop) (lines : List Written) :
    Prop where
  bare : AreBare lines
  quiet : IsQuiet extra place (textsOf lines)

namespace IsPassed
variable {extra : List Text} {place : Option Construct → Prop}

theorem nil : IsPassed extra place [] := ⟨.nil, .nil⟩

theorem append {first second : List Written} (left : IsPassed extra place first)
    (right : IsPassed extra place second) : IsPassed extra place (first ++ second) := by
  refine ⟨left.bare.append right.bare, ?_⟩
  rw [textsOf_append]
  exact left.quiet.append right.quiet

theorem flatMap {α : Type} {items : List α} {lines : α → List Written}
    (passed : ∀ item ∈ items, IsPassed extra place (lines item)) :
    IsPassed extra place (items.flatMap lines) := by
  induction items with
  | nil => exact nil
  | cons item rest ih =>
    rw [List.flatMap_cons]
    exact (passed item List.mem_cons_self).append
      (ih fun i mem => passed i (List.mem_cons_of_mem item mem))

theorem plain {depth : Nat} {t : Text} (bare : IsBareLine t) (token : bracket? t = none)
    (fine : ∀ top, place top → IsFine extra top t) : IsPassed extra place [⟨depth, some t⟩] :=
  ⟨.singleton bare, .plain token fine⟩

theorem bracketed {inner : List Written} {within : Option Construct → Prop}
    (passed : IsPassed extra within inner) {c : Construct} (inside : within (some c))
    {depth : Nat} {first last : Text} (bareFirst : IsBareLine first) (bareLast : IsBareLine last)
    (opens : bracket? first = some (.opens c)) (closes : bracket? last = some (.closes c))
    (fineFirst : IsFine extra (some c) first) (fineLast : ∀ top, place top → IsFine extra top last) :
    IsPassed extra place (.fixed depth first :: inner ++ [.fixed depth last]) := by
  have texts : textsOf (.fixed depth first :: inner ++ [.fixed depth last]) =
      first :: textsOf inner ++ [last] := textsOf_append ..
  refine ⟨AreBare.append (.cons bareFirst passed.bare) (.singleton bareLast), ?_⟩
  rw [texts]
  exact passed.quiet.bracketed inside opens closes fineFirst fineLast

end IsPassed

theorem written_chars {c : Char} (written : isWrittenChar c = true ∨ c = ':' ∨ c = ';') :
    c ∉ "\n'\"/*".toList := by
  intro sign
  have signs : ∀ d ∈ "\n'\"/*".toList, isWrittenChar d = false ∧ d ≠ ':' ∧ d ≠ ';' := of_all rfl
  obtain ⟨other, noColon, noSemicolon⟩ := signs c sign
  rcases written with written | rfl | rfl
  · exact Bool.noConfusion (written.symm.trans other)
  · exact noColon rfl
  · exact noSemicolon rfl

theorem isBareLine_of_written {t : Text}
    (written : ∀ c ∈ t, isWrittenChar c = true ∨ c = ':' ∨ c = ';') (trimmed : IsTrimmed t) :
    IsBareLine t :=
  (isCommentFree_of_chars fun c mem => written_chars (written c mem)).isBareLine trimmed

theorem isTrimmed_semicolon : IsTrimmed [';'] := isTrimmed_of_solid (by simp) (of_all rfl)

namespace IsWrittenCode
variable {t : Text} (code : IsWrittenCode t)
include code

theorem not_mem_colon : ':' ∉ t := by
  intro mem
  have written := code.chars ':' mem
  contradiction

theorem isBareLine_concat : IsBareLine (t ++ [';']) := by
  apply isBareLine_of_written _ (code.trimmed.append isTrimmed_semicolon)
  rw [List.forall_mem_append]
  exact ⟨fun c mem => Or.inl (code.chars c mem), of_all rfl⟩

theorem isFine_concat {extra : List Text} {top : Option Construct} (place : IsCodePlace top) :
    IsFine extra top (t ++ [';']) := by
  apply isFine_of_missing place (Or.inr List.getLast?_concat)
  · exact code.balanced.append (balanced_of_free (of_all rfl))
  · intro inside
    have colon : ':' ∈ t ++ [';'] := inside.subset List.mem_cons_self
    rcases List.mem_append.mp colon with mem | mem
    · exact code.not_mem_colon mem
    · contradiction

theorem isPassed_concat {extra : List Text} {depth : Nat} {w rest : Text} (whole : t = w ++ rest)
    (word : IsSilentWord w) (ends : atWordEnd rest = true) :
    IsPassed extra IsCodePlace [.fixed depth (t ++ [';'])] := by
  apply IsPassed.plain code.isBareLine_concat
  · have stops : atWordEnd (rest ++ [';']) = true := atWordEnd_append ends rfl
    rw [whole, List.append_assoc]
    exact bracket?_of_silent word stops
  · exact fun top place => code.isFine_concat place

end IsWrittenCode

section Assignment
variable {target value : Text} (ordinary : isOrdinaryName target = true)
include ordinary

theorem chars_of_isOrdinaryName : ∀ c ∈ target, isWord c = true ∨ c = '.' := by
  obtain ⟨w, rest, rfl, word, words⟩ := parts_of_isOrdinaryName ordinary
  rw [List.forall_mem_append]
  refine ⟨fun c mem => Or.inl (word.isWord c mem), ?_⟩
  intro c mem
  obtain ⟨v, inside, mem⟩ := List.mem_flatMap.mp mem
  rcases List.mem_cons.mp mem with rfl | mem
  · exact Or.inr rfl
  · exact Or.inl ((words v inside).isWord c mem)

theorem firstPart_of_isOrdinaryName (behind : Text) :
    ∃ w d rest, target ++ ' ' :: behind = w ++ d :: rest ∧ OrdinaryWord w ∧
      isWord d = false ∧ isWord (fold d) = false := by
  obtain ⟨w, rest, rfl, word, -⟩ := parts_of_isOrdinaryName ordinary
  cases rest with
  | nil =>
    refine ⟨w, ' ', behind, ?_, word, by decide, by decide⟩
    rw [List.flatMap_nil, List.append_nil]
  | cons v rest =>
    refine ⟨w, '.', v ++ rest.flatMap ('.' :: ·) ++ ' ' :: behind, ?_, word, by decide, by decide⟩
    rw [List.flatMap_cons, List.append_assoc, List.cons_append, List.cons_append]

end Assignment

theorem isTarget_of_isOrdinaryName {target : Text} (ordinary : isOrdinaryName target = true) :
    isTarget target = true := by
  have filled := (Expression.isWrittenCode_name ordinary).trimmed.ne_nil
  rw [isTarget, List.isEmpty_eq_false_iff.mpr filled, Bool.not_false, Bool.true_and,
    List.all_eq_true]
  intro c mem
  rcases chars_of_isOrdinaryName ordinary c mem with letter | rfl
  · simp [letter]
  · decide

theorem checkAssignment_written {target value : Text} (ordinary : isOrdinaryName target = true)
    (code : IsWrittenCode value) {line : Line}
    (text : line.text = target ++ " := ".toList ++ value ++ [';']) :
    checkAssignment false line = [] := by
  rw [List.append_assoc] at text
  have free : beginsWithKeyword line.text = false := by
    obtain ⟨w, d, rest, first, word, ends⟩ :=
      firstPart_of_isOrdinaryName ordinary (":= ".toList ++ (value ++ [';']))
    have whole : line.text = target ++ ' ' :: (":= ".toList ++ (value ++ [';'])) := by
      rw [text]
      simp
    rw [whole, first]
    exact beginsWithKeyword_of_nonKeyword word.toNonKeyword ends rest
  have noColon : ':' ∉ value ++ [';'] := by
    rw [List.mem_append]
    rintro (mem | mem)
    · exact code.not_mem_colon mem
    · contradiction
  have balanced := code.balanced.append (balanced_of_free (t := [';']) (of_all rfl))
  exact checkAssignment_spaced free text (isTarget_of_isOrdinaryName ordinary) noColon
    (hasEqualParens_of_balanced balanced)

end StructuredText
