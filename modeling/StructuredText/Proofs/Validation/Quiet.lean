import StructuredText.Proofs.Validation.Sections

/- Lines that the validator passes over: they leave what is open as it was, and of what is found in
   them nothing is an error or a missing semicolon. -/
namespace StructuredText

def Finding.IsHarmless (f : Finding) : Prop :=
  f.problem.severity ≠ .error ∧ f.problem ≠ .missingSemicolon

def IsHarmlessCheck (check : Line → List Finding) (t : Text) : Prop :=
  ∀ line : Line, line.text = t → ∀ f ∈ check line, f.IsHarmless

/-- What the line says apart from its nesting, where `top` is open innermost. -/
structure IsFine (extra : List Text) (top : Option Construct) (t : Text) : Prop where
  semicolon : IsHarmlessCheck checkSemicolon t
  declaration : top = some .declarations → IsHarmlessCheck (checkDeclaration extra) t
  assignment : top ≠ some .declarations →
    IsHarmlessCheck (checkAssignment (top = some .caseBlock)) t
  call : top ≠ some .declarations → IsHarmlessCheck checkCall t

section Checks
variable {extra : List Text}

theorem checkLine_harmless {line : Line} (filled : line.text.isEmpty = false)
    {stack : List OpenConstruct} (found : nestingFound stack line = [])
    (fine : IsFine extra (topOf (openAfter stack line)) line.text) :
    ∀ f ∈ (checkLine extra line stack).1, f.IsHarmless := by
  intro f mem
  rw [checkLine_eq extra filled, found, List.nil_append] at mem
  rcases List.mem_append.mp mem with mem | mem
  · exact fine.semicolon line rfl f mem
  · split at mem
    · next inside => exact fine.declaration (of_decide_eq_true inside) line rfl f mem
    · next outside =>
      have outside : topOf (openAfter stack line) ≠ some .declarations := by
        simpa [checksDeclaration, topOf] using outside
      rcases List.mem_append.mp mem with mem | mem
      · exact fine.assignment outside line rfl f mem
      · exact fine.call outside line rfl f mem

theorem checkLines_cons (line : Line) (rest : List Line) (stack : List OpenConstruct) :
    (checkLines extra (line :: rest) stack).1 =
      (if line.text.isEmpty then [] else (checkLine extra line stack).1) ++
        (checkLines extra rest (openAfter stack line)).1 := by
  rw [checkLines, openAfter]
  cases line.text.isEmpty with
  | true => rfl
  | false => rfl

theorem checkLines_append (first second : List Line) (stack : List OpenConstruct) :
    (checkLines extra (first ++ second) stack).1 =
      (checkLines extra first stack).1 ++ (checkLines extra second (openBehind stack first)).1 := by
  induction first generalizing stack with
  | nil => rfl
  | cons line rest ih =>
    rw [List.cons_append, checkLines_cons, ih, checkLines_cons, openBehind_cons, List.append_assoc]

def IsQuiet (extra : List Text) (place : Option Construct → Prop) (texts : List Text) : Prop :=
  ∀ (lines : List Line) (stack : List OpenConstruct), lines.map (·.text) = texts →
    place (topOf stack) → openBehind stack lines = stack ∧
      ∀ f ∈ (checkLines extra lines stack).1, f.IsHarmless

namespace IsQuiet
variable {place : Option Construct → Prop}

theorem nil : IsQuiet extra place [] := by
  intro lines stack texts _
  obtain rfl := List.map_eq_nil_iff.mp texts
  exact ⟨rfl, fun f mem => absurd mem List.not_mem_nil⟩

theorem append {first second : List Text} (left : IsQuiet extra place first)
    (right : IsQuiet extra place second) : IsQuiet extra place (first ++ second) := by
  intro lines stack texts here
  obtain ⟨before, behind, rfl, leftTexts, rightTexts⟩ := List.map_eq_append_iff.mp texts
  obtain ⟨same, harmless⟩ := left before stack leftTexts here
  obtain ⟨same', harmless'⟩ := right behind stack rightTexts here
  constructor
  · rw [openBehind_append, same, same']
  · rw [checkLines_append, same, List.forall_mem_append]
    exact ⟨harmless, harmless'⟩

theorem blank : IsQuiet extra place [[]] := by
  intro lines stack texts _
  obtain ⟨line, rfl, text⟩ := List.map_eq_singleton_iff.mp texts
  constructor
  · rw [openBehind_cons, openAfter, text]
    rfl
  · rw [checkLines_cons, text]
    exact fun f mem => absurd mem List.not_mem_nil

theorem plain {t : Text} (token : bracket? t = none) (fine : ∀ top, place top → IsFine extra top t) :
    IsQuiet extra place [t] := by
  intro lines stack texts here
  obtain ⟨line, rfl, rfl⟩ := List.map_eq_singleton_iff.mp texts
  obtain ⟨found, same⟩ := nestingStep_plain stack token
  refine ⟨same, ?_⟩
  rw [checkLines_cons]
  cases filled : line.text.isEmpty with
  | true => exact fun f mem => absurd mem List.not_mem_nil
  | false =>
    rw [if_neg Bool.false_ne_true, List.forall_mem_append]
    refine ⟨checkLine_harmless filled found ?_, fun f mem => absurd mem List.not_mem_nil⟩
    rw [same]
    exact fine _ here

theorem ne_nil_of_bracket {t : Text} {b : Bracket} (token : bracket? t = some b) :
    t.isEmpty = false := by
  cases t with
  | nil =>
    rw [bracket?_nil] at token
    contradiction
  | cons c t => rfl

theorem bracketed {inner : List Text} {within : Option Construct → Prop}
    (quiet : IsQuiet extra within inner) {c : Construct} (inside : within (some c))
    {first last : Text} (opens : bracket? first = some (.opens c))
    (closes : bracket? last = some (.closes c)) (fineFirst : IsFine extra (some c) first)
    (fineLast : ∀ top, place top → IsFine extra top last) :
    IsQuiet extra place (first :: inner ++ [last]) := by
  intro lines stack texts here
  rw [List.cons_append] at texts
  obtain ⟨opener, more, rfl, rfl, moreTexts⟩ := List.map_eq_cons_iff.mp texts
  obtain ⟨middle, closing, rfl, rfl, closingText⟩ := List.map_eq_append_iff.mp moreTexts
  obtain ⟨closer, rfl, rfl⟩ := List.map_eq_singleton_iff.mp closingText
  obtain ⟨found, pushed⟩ := nestingStep_opens stack opens
  obtain ⟨found', popped⟩ := nestingStep_closes stack ⟨c, opener.number⟩ closes
  obtain ⟨same, harmless⟩ := quiet middle (⟨c, opener.number⟩ :: stack) rfl inside
  have filled := ne_nil_of_bracket opens
  have filled' := ne_nil_of_bracket closes
  constructor
  · rw [openBehind_cons, pushed, openBehind_append, same, openBehind_cons, popped]
    rfl
  · rw [checkLines_cons, pushed, checkLines_append, same, checkLines_cons]
    simp only [filled, filled', Bool.false_eq_true, if_false, List.forall_mem_append]
    refine ⟨checkLine_harmless filled found ?_, harmless, checkLine_harmless filled' found' ?_,
      fun f mem => absurd mem List.not_mem_nil⟩
    · rw [pushed]
      exact fineFirst
    · rw [popped]
      exact fineLast _ here

end IsQuiet

end Checks

end StructuredText
