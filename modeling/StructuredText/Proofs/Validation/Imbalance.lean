import StructuredText.Proofs.Source.Depth
import StructuredText.Proofs.Validation.LineOrder
import StructuredText.Proofs.Validation.ProgramLine

/- When parentheses that do not match are an error.  The search for `:=` keeps count of the depth, and
   the checks compare how many parentheses open and close; no check asks for their order, and where
   no `:=` stands outside parentheses only a call is checked at all. -/
namespace StructuredText

def beginsCall (t : Text) : Bool := (callHead? t).any fun (name, _) => !isReserved name

section Errors
variable {line : Line}

theorem severity_of_mem_checkAssignment {inCase : Bool} {f : Finding}
    (mem : f ∈ checkAssignment inCase line) : f.problem.severity = .error := by
  cases mem_checkAssignment.mp mem <;> rfl

theorem error_of_checkCall :
    (∃ f ∈ checkCall line, f.problem.severity = .error) ↔
      beginsCall line.text = true ∧ hasEqualParens line.text = false := by
  rw [beginsCall, Option.any_eq_true]
  constructor
  · rintro ⟨f, mem, error⟩
    cases mem_checkCall.mp mem with
    | parens head free unequal => exact ⟨⟨_, head, by simp [free]⟩, unequal⟩
    | positional => contradiction
  · rintro ⟨⟨⟨name, opening⟩, head, free⟩, unequal⟩
    exact ⟨_, mem_checkCall.mpr (.parens head (by simpa using free) unequal), rfl⟩

theorem severity_of_mem_checkSemicolon {f : Finding} (mem : f ∈ checkSemicolon line) :
    f.problem.severity = .warning := by
  obtain ⟨-, -, rfl⟩ := mem_checkSemicolon.mp mem
  rfl

theorem error_of_checks (free : beginsWithKeyword line.text = false) :
    (∃ f ∈ checkSemicolon line ++ (checkAssignment false line ++ checkCall line),
        f.problem.severity = .error) ↔
      (StandsOutside ":=".toList line.text ∧ ¬ IsSimpleAssignment line.text) ∨
        (hasEqualParens line.text = false ∧
          (StandsOutside ":=".toList line.text ∨ beginsCall line.text = true)) := by
  have assignment : (∃ f ∈ checkAssignment false line, f.problem.severity = .error) ↔
      checkAssignment false line ≠ [] := by
    constructor
    · rintro ⟨f, mem, -⟩
      exact List.ne_nil_of_mem mem
    · intro found
      obtain ⟨f, mem⟩ := List.exists_mem_of_ne_nil _ found
      exact ⟨f, mem, severity_of_mem_checkAssignment mem⟩
  have semicolon : ¬ ∃ f ∈ checkSemicolon line, f.problem.severity = .error := by
    rintro ⟨f, mem, error⟩
    rw [severity_of_mem_checkSemicolon mem] at error
    contradiction
  have parted : (∃ f ∈ checkSemicolon line ++ (checkAssignment false line ++ checkCall line),
        f.problem.severity = .error) ↔
      (∃ f ∈ checkSemicolon line, f.problem.severity = .error) ∨
        (∃ f ∈ checkAssignment false line, f.problem.severity = .error) ∨
          ∃ f ∈ checkCall line, f.problem.severity = .error := by
    simp only [List.mem_append, or_and_right, exists_or]
  rw [parted, or_iff_right semicolon, assignment, error_of_checkCall, ne_eq,
    checkAssignment_eq_nil_iff free]
  generalize StandsOutside ":=".toList line.text = outside
  cases hasEqualParens line.text with
  | true => simp
  | false =>
    by_cases here : outside
    · simp [here]
    · simp [here]

end Errors

/-- In a program of one line without a keyword there is an error on that line in three cases only: it
    opens a section, which then nothing closes; `:=` stands in it outside parentheses but it is no
    simple assignment; or it does not close as many parentheses as it opens, and `:=` stands outside
    parentheses or it begins like a call. -/
theorem exists_error_iff (extraTypes : List Text) {line : Text} (plain : IsCommentFree line)
    (free : beginsWithKeyword (trim line) = false) :
    (∃ f ∈ validate extraTypes (programAround line), f.line = 2 ∧ f.problem.severity = .error) ↔
      opened? (trim line) = some .declarations ∨
      (StandsOutside ":=".toList (trim line) ∧ ¬ IsSimpleAssignment (trim line)) ∨
      (hasEqualParens (trim line) = false ∧
        (StandsOutside ":=".toList (trim line) ∨ beginsCall (trim line) = true)) := by
  rcases bracket?_of_free free with token | token
  · have closed : opened? (trim line) ≠ some .declarations := by
      rw [(bracket?_eq_none.mp token).1]
      simp
    have onLine : ∀ f ∈ validate extraTypes (programAround line), f.line = 2 := by
      intro f mem
      rw [validate_programAround extraTypes plain token] at mem
      have found : IsFoundOn (Line.ofCleaned 2 line) f := by
        rcases List.mem_append.mp mem with mem | mem
        · exact isFoundOn_of_mem_checkSemicolon mem
        · rcases List.mem_append.mp mem with mem | mem
          · exact isFoundOn_of_mem_checkAssignment mem
          · exact isFoundOn_of_mem_checkCall mem
      exact found.line_eq
    have errors := @error_of_checks (Line.ofCleaned 2 line) free
    rw [← validate_programAround extraTypes plain token] at errors
    rw [or_iff_right closed]
    refine Iff.trans ?_ errors
    constructor
    · rintro ⟨f, mem, -, error⟩
      exact ⟨f, mem, error⟩
    · rintro ⟨f, mem, error⟩
      exact ⟨f, mem, onLine f mem, error⟩
  · exact iff_of_true ⟨_, unclosed_programAround extraTypes plain token, rfl, rfl⟩
      (Or.inl (bracket?_eq_opens.mp token))

theorem exists_error_iff_unclosed :
    let line := "  y[1] := f((a), b;".toList
    let inner := "Motor.Run(x := 1;".toList
    IsCommentFree line ∧ beginsWithKeyword (trim line) = false ∧
      (∃ f ∈ validate [] (programAround line), f.line = 2 ∧ f.problem.severity = .error) ∧
      IsCommentFree inner ∧ beginsWithKeyword (trim inner) = false ∧
      ¬ ∃ f ∈ validate [] (programAround inner), f.line = 2 ∧ f.problem.severity = .error := by
  intro line inner
  have plain : IsCommentFree line := isCommentFree_of_chars (of_all (by decide))
  have free : beginsWithKeyword (trim line) = false := by decide
  have plainInner : IsCommentFree inner := isCommentFree_of_chars (of_all (by decide))
  have freeInner : beginsWithKeyword (trim inner) = false := by decide
  have unequal : hasEqualParens (trim line) = false := by decide
  have outside : StandsOutside ":=".toList (trim line) :=
    ⟨"y[1] ".toList, by decide, by decide⟩
  have inside : ¬ StandsOutside ":=".toList (trim inner) := by
    rw [standsOutside_assign_iff]
    decide
  refine ⟨plain, free, (exists_error_iff [] plain free).mpr (Or.inr (Or.inr ⟨unequal, Or.inl outside⟩)),
    plainInner, freeInner, ?_⟩
  rw [exists_error_iff [] plainInner freeInner]
  rintro (opens | ⟨stands, -⟩ | ⟨-, stands | call⟩)
  · exact absurd opens (by decide)
  · exact inside stands
  · exact inside stands
  · exact absurd call (by decide)

/-- As many parentheses close as open, but one closes before any has opened. -/
theorem validate_reversedParens :
    let line := "x := a) + (b;".toList
    IsCommentFree line ∧ beginsWithKeyword (trim line) = false ∧ ":=".toList <:+: line ∧
      (∃ start, start <+: line ∧ start.count '(' < start.count ')') ∧
      validate [] (programAround line) = [] := by
  intro line
  have plain : IsCommentFree line := isCommentFree_of_chars (of_all (by decide))
  exact ⟨plain, by decide, by decide, ⟨"x := a)".toList, by decide, by decide⟩,
    by decide⟩

end StructuredText
