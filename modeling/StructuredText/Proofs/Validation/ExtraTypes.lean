import StructuredText.Proofs.Validation.Imbalance

/- Further types that are made known.  Of all checks only that of a declaration asks which types are
   known, so they take away what was found of a type that is one of them and leave the rest of the
   findings, and what is open, as it was. -/
namespace StructuredText

def Finding.isOfType (types : List Text) (f : Finding) : Bool :=
  match f.problem with
  | .unknownType name => (types.map upper).contains (upper name)
  | _ => false

def withoutTypes (types : List Text) (findings : List Finding) : List Finding :=
  findings.filter (!·.isOfType types)

section Kept
variable {types : List Text}

theorem withoutTypes_append (first second : List Finding) :
    withoutTypes types (first ++ second) = withoutTypes types first ++ withoutTypes types second :=
  List.filter_append ..

theorem withoutTypes_unknownType (line : Line) (offset : Nat) (name : Text) :
    withoutTypes types [line.finding offset (.unknownType name)] =
      if (types.map upper).contains (upper name) then []
      else [line.finding offset (.unknownType name)] := by
  have isOf : (line.finding offset (.unknownType name)).isOfType types =
      (types.map upper).contains (upper name) := rfl
  rw [withoutTypes, List.filter_cons, isOf]
  cases (types.map upper).contains (upper name) with
  | true => rfl
  | false => rfl

theorem withoutTypes_eq_self {findings : List Finding}
    (other : ∀ f ∈ findings, ∀ name, f.problem ≠ .unknownType name) :
    withoutTypes types findings = findings := by
  apply List.filter_eq_self.mpr
  intro f mem
  have unnamed := other f mem
  unfold Finding.isOfType
  cases problem : f.problem with
  | unknownType name => exact absurd problem (unnamed name)
  | _ => rfl

theorem withoutTypes_of_isNesting {findings : List Finding}
    (nesting : ∀ f ∈ findings, f.problem.isNesting = true) :
    withoutTypes types findings = findings := by
  apply withoutTypes_eq_self
  intro f mem name problem
  have isNesting := nesting f mem
  rw [problem] at isNesting
  contradiction

variable (line : Line)

theorem withoutTypes_checkSemicolon :
    withoutTypes types (checkSemicolon line) = checkSemicolon line := by
  apply withoutTypes_eq_self
  intro f mem name
  obtain ⟨-, -, rfl⟩ := mem_checkSemicolon.mp mem
  exact nofun

theorem withoutTypes_checkAssignment (inCase : Bool) :
    withoutTypes types (checkAssignment inCase line) = checkAssignment inCase line := by
  apply withoutTypes_eq_self
  intro f mem
  cases mem_checkAssignment.mp mem <;> exact nofun

theorem withoutTypes_checkCall : withoutTypes types (checkCall line) = checkCall line := by
  apply withoutTypes_eq_self
  intro f mem
  cases mem_checkCall.mp mem <;> exact nofun

end Kept

section More
variable {types more : List Text} (subset : types ⊆ more)
include subset

theorem checkDeclaration_more (line : Line) :
    checkDeclaration (more.map upper) line =
      withoutTypes more (checkDeclaration (types.map upper) line) := by
  rw [checkDeclaration, checkDeclaration]
  cases declaration? line.text with
  | none => rfl
  | some d =>
    have name : withoutTypes more
        (if d.name.head?.any isDigitLike then [line.finding 0 .digitFirst] else []) =
          if d.name.head?.any isDigitLike then [line.finding 0 .digitFirst] else [] := by
      split <;> rfl
    dsimp only
    rw [withoutTypes_append, name]
    congr 1
    by_cases known : isKnownType d.type = true
    · rw [known]
      rfl
    · by_cases before : (types.map upper).contains (upper d.type) = true
      · have still : (more.map upper).contains (upper d.type) = true :=
          List.contains_iff_mem.mpr (List.map_subset upper subset (List.contains_iff_mem.mp before))
        rw [before, still, Bool.or_true]
        rfl
      · simp only [Bool.not_eq_true] at known before
        rw [known, before, Bool.false_or, Bool.false_or, if_neg Bool.false_ne_true,
          withoutTypes_unknownType]

theorem checkLine_more (line : Line) (stack : List OpenConstruct) :
    checkLine (more.map upper) line stack =
      (withoutTypes more (checkLine (types.map upper) line stack).1,
        (checkLine (types.map upper) line stack).2) := by
  have nesting : withoutTypes more (checkNesting line stack).1 = (checkNesting line stack).1 :=
    withoutTypes_of_isNesting fun f mem => isNesting_of_mem_checkNesting line mem
  simp only [checkLine, withoutTypes_append, nesting, withoutTypes_checkSemicolon]
  split
  · rw [checkDeclaration_more subset]
  · rw [withoutTypes_append, withoutTypes_checkAssignment, withoutTypes_checkCall]

theorem checkLines_more (lines : List Line) (stack : List OpenConstruct) :
    checkLines (more.map upper) lines stack =
      (withoutTypes more (checkLines (types.map upper) lines stack).1,
        (checkLines (types.map upper) lines stack).2) := by
  induction lines generalizing stack with
  | nil => rfl
  | cons line rest ih =>
    rw [checkLines, checkLines]
    split
    · exact ih stack
    · simp only [checkLine_more subset, ih, withoutTypes_append]

/-- With more types made known the findings are those of before, in their order, less those of
    unknown types that now are known. -/
theorem validate_moreTypes (source : Text) :
    validate more source = (validate types source).filter (!·.isOfType more) := by
  have unclosed (stack : List OpenConstruct) :
      withoutTypes more (unclosedFindings stack) = unclosedFindings stack := by
    apply withoutTypes_of_isNesting
    intro f mem
    obtain ⟨o, -, rfl⟩ := List.mem_map.mp mem
    rfl
  rw [← withoutTypes, validate, validate]
  simp only [checkLines_more subset, withoutTypes_append, unclosed]

end More

/-- Three types that are not known, a declaration without its semicolon, and a section that stays
    open.  One of the types has a sharp s in its name, the capital of which is a double S. -/
theorem validate_moreTypes_ramps :
    let source := "VAR\n a : Ramp; b : Meß\n 1c : Meß := 2\n d : Gate;".toList
    ["Gate".toList] ⊆ ["Gate".toList, "rAMP".toList, "MESS".toList] ∧
      validate ["Gate".toList] source =
        [⟨2, 6, .unknownType "Ramp".toList⟩, ⟨3, 15, .missingSemicolon⟩, ⟨3, 2, .digitFirst⟩,
          ⟨3, 7, .unknownType "Meß".toList⟩, ⟨1, 0, .unclosed .declarations⟩] ∧
      validate ["Gate".toList, "rAMP".toList, "MESS".toList] source =
        [⟨3, 15, .missingSemicolon⟩, ⟨3, 2, .digitFirst⟩, ⟨1, 0, .unclosed .declarations⟩] := by
  intro source
  have subset : ["Gate".toList] ⊆ ["Gate".toList, "rAMP".toList, "MESS".toList] := by decide
  have found : validate ["Gate".toList] source =
      [⟨2, 6, .unknownType "Ramp".toList⟩, ⟨3, 15, .missingSemicolon⟩, ⟨3, 2, .digitFirst⟩,
        ⟨3, 7, .unknownType "Meß".toList⟩, ⟨1, 0, .unclosed .declarations⟩] := by
    decide
  refine ⟨subset, found, ?_⟩
  rw [validate_moreTypes subset, found]
  decide

end StructuredText
