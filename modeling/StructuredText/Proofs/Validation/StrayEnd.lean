import StructuredText.Proofs.Validation.LineOrder
import StructuredText.Proofs.Validation.WrittenLine

/- An end that ends nothing.  Where it does not fit the construct that is open innermost it is found
   to be wrong and changes nothing else: what is open stays open, so the lines behind it are checked
   as if it were not there and only go down by one. -/
namespace StructuredText

def endLine (c : Construct) : Text := c.terminator ++ [';']

structure IsBareEnd (c : Construct) : Prop where
  alone : physicalLines (endLine c) = [endLine c]
  inCode : (regionAfter .code 0 (endLine c)).nextLine = .code
  clean : cleanLine .code (endLine c) = endLine c
  trimmed : trim (endLine c) = endLine c ∧ leadingBlanks (endLine c) = 0
  filled : (endLine c).isEmpty = false
  closes : bracket? (endLine c) = some (.closes c)
  exempt : isExempt (endLine c) = true
  noDeclaration : declaration? (endLine c) = none
  noColon : ':' ∉ endLine c
  noCall : callHead? (endLine c) = none

theorem isBareEnd (c : Construct) : IsBareEnd c := by
  have all : ∀ c ∈ Construct.all, physicalLines (endLine c) = [endLine c] ∧
      (regionAfter .code 0 (endLine c)).nextLine = .code ∧
      cleanLine .code (endLine c) = endLine c ∧
      (trim (endLine c) = endLine c ∧ leadingBlanks (endLine c) = 0) ∧
      (endLine c).isEmpty = false ∧ bracket? (endLine c) = some (.closes c) ∧
      isExempt (endLine c) = true ∧ (declaration? (endLine c)).isNone ∧ ':' ∉ endLine c ∧
      callHead? (endLine c) = none := by
    decide
  obtain ⟨alone, inCode, clean, trimmed, filled, closes, exempt, declaration, colon, call⟩ :=
    all c c.mem_all
  exact ⟨alone, inCode, clean, trimmed, filled, closes, exempt,
    Option.isNone_iff_eq_none.mp declaration, colon, call⟩

section Line
variable {c : Construct} {stack : List OpenConstruct} (astray : topOf stack ≠ some c)
include astray

theorem checkNesting_stray {line : Line} (text : line.text = endLine c) :
    checkNesting line stack = ([⟨line.number, 0, strayProblem (topOf stack) c⟩], stack) := by
  have closes : closed? line.text = some c := by
    rw [text]
    exact bracket?_eq_closes.mp (isBareEnd c).closes
  have check := nestingCheck line stack
  generalize checkNesting line stack = result at check ⊢
  cases check with
  | plain noOpener noEnd => simp [closes] at noEnd
  | opens opener noEnd => simp [closes] at noEnd
  | closes fits => exact absurd (fits.symm.trans closes) astray
  | astray closes' other =>
    obtain rfl := Option.some.inj (closes'.symm.trans closes)
    rfl

theorem checkLine_stray (extra : List Text) {line : Line} (text : line.text = endLine c) :
    checkLine extra line stack = ([⟨line.number, 0, strayProblem (topOf stack) c⟩], stack) := by
  have bare := isBareEnd c
  have semicolon : checkSemicolon line = [] := by
    rw [checkSemicolon, needsSemicolon, text, bare.exempt]
    rfl
  have declaration : checkDeclaration extra line = [] := by
    rw [checkDeclaration, text, bare.noDeclaration]
  have assignment (inCase : Bool) : checkAssignment inCase line = [] := by
    apply checkAssignment_eq_nil
    rw [text]
    exact fun inside => bare.noColon (inside.subset List.mem_cons_self)
  have call : checkCall line = [] := by rw [checkCall, text, bare.noCall]
  simp only [checkLine, checkNesting_stray astray text, semicolon, declaration, assignment, call]
  split <;> rfl

end Line

def Displacement.insertion (before : Nat) : Displacement :=
  ⟨fun number => if before < number then 1 else 0, fun _ => 0⟩

/-- A finding behind the first `before` lines goes down by one, whether it is made there or, at the
    end, of what was opened there. -/
def Finding.pushedDown (before : Nat) (f : Finding) : Finding :=
  { f with line := if before < f.line then f.line + 1 else f.line }

section Insertion
variable (before : Nat)

theorem finding_insertion :
    (Displacement.insertion before).finding = Finding.pushedDown before := by
  funext f
  have column : (if f.column = 0 then 0 else f.column + 0) = f.column := by
    split
    · next whole => exact whole.symm
    · rfl
  have line : f.line + (if before < f.line then 1 else 0) =
      if before < f.line then f.line + 1 else f.line := by
    split <;> rfl
  rw [Displacement.finding, Displacement.insertion, Finding.pushedDown]
  dsimp only
  rw [column, line]

theorem linesFrom_insertion {number : Nat} (behind : before < number) (start : Region)
    (raw : List Text) : linesFrom (number + 1) start raw =
      (linesFrom number start raw).map (Displacement.insertion before).line := by
  rw [linesFrom_add]
  apply List.map_congr_left
  intro line mem
  have later : before < line.number := Nat.lt_of_lt_of_le behind (text_at_number mem).1
  rw [Displacement.line, Displacement.line, Displacement.insertion]
  dsimp only
  rw [if_pos later]

theorem map_construct_insertion {stack : List OpenConstruct}
    (above : ∀ o ∈ stack, o.line ≤ before) :
    stack.map (Displacement.insertion before).construct = stack := by
  have same : ∀ o ∈ stack, (Displacement.insertion before).construct o = id o := by
    intro o mem
    have stays : ¬ before < o.line := Nat.not_lt.mpr (above o mem)
    rw [Displacement.construct, Displacement.insertion]
    dsimp only
    rw [if_neg stays, Nat.add_zero]
    rfl
  rw [List.map_congr_left same, List.map_id]

end Insertion

theorem number_le_of_mem_sourceLines {source : Text} {line : Line}
    (mem : line ∈ sourceLines source) : line.number ≤ (physicalLines source).length := by
  obtain ⟨first, text⟩ := text_at_number mem
  have within := (List.getElem?_eq_some_iff.mp text).1
  rw [List.length_map, length_linesFrom] at within
  omega

theorem sourceLines_endLine {first : Text} (outside : endsInComment first = false) (second : Text)
    (c : Construct) :
    ∃ behind : List Line, sourceLines (first ++ '\n' :: second) = sourceLines first ++ behind ∧
      (∀ line ∈ behind, (physicalLines first).length < line.number) ∧
      sourceLines (first ++ '\n' :: (endLine c ++ '\n' :: second)) =
        sourceLines first ++ ⟨(physicalLines first).length + 1, endLine c, 0⟩ ::
          behind.map (Displacement.insertion (physicalLines first).length).line := by
  have bare := isBareEnd c
  have line (number : Nat) : Line.ofCleaned number (endLine c) = ⟨number, endLine c, 0⟩ := by
    rw [Line.ofCleaned, bare.trimmed.1, bare.trimmed.2, ite_self]
  have code := regionBehind_eq_code outside
  have later : (physicalLines first).length < 1 + (physicalLines first).length := by omega
  refine ⟨linesFrom (1 + (physicalLines first).length) .code (physicalLines second), ?_, ?_, ?_⟩
  · rw [sourceLines, physicalLines_append, linesFrom_append, code]
    rfl
  · intro line mem
    have := (text_at_number mem).1
    omega
  · rw [sourceLines, physicalLines_append, linesFrom_append, code, physicalLines_append,
      bare.alone, List.singleton_append, linesFrom, bare.clean, line, bare.inCode,
      linesFrom_insertion _ later, Nat.add_comm 1]
    rfl

/-- Between two lines of a source, outside of comments, a line is put in that is the end of a
    construct, and not of the one that is open innermost there.  This end is found to be an error,
    and all other findings are those of before in their order, those behind it one line further
    down. -/
theorem validate_strayEnd (extraTypes : List Text) {first : Text}
    (outside : endsInComment first = false) (second : Text) {c : Construct}
    (astray : topOf (openBehind [] (sourceLines first)) ≠ some c) :
    let before := (physicalLines first).length
    let problem := strayProblem (topOf (openBehind [] (sourceLines first))) c
    problem.severity = .error ∧
      ∃ onFirst later, validate extraTypes (first ++ '\n' :: second) = onFirst ++ later ∧
        (∀ f ∈ onFirst, f.line ≤ before) ∧
        (∀ f ∈ later, before < f.line ∨ f.problem.isUnclosed = true) ∧
        validate extraTypes (first ++ '\n' :: (endLine c ++ '\n' :: second)) =
          onFirst ++ ⟨before + 1, 0, problem⟩ :: later.map (Finding.pushedDown before) := by
  intro before problem
  obtain ⟨behind, lines, numbers, inserted⟩ := sourceLines_endLine outside second c
  let extra := extraTypes.map upper
  let opened := openBehind [] (sourceLines first)
  let stray : Line := ⟨before + 1, endLine c, 0⟩
  have above : ∀ o ∈ opened, o.line ≤ before := by
    intro o mem
    rcases mem_openBehind mem with none | ⟨line, inside, -, number⟩
    · contradiction
    · rw [number]
      exact number_le_of_mem_sourceLines inside
  have onStray : checkLine extra stray opened = ([⟨before + 1, 0, problem⟩], opened) :=
    checkLine_stray astray extra rfl
  have filled : stray.text.isEmpty = false := (isBareEnd c).filled
  have stays : openAfter opened stray = opened := by
    rw [openAfter, filled, ← (checkLine_nesting extra stray opened).1, onStray]
    rfl
  have moved := (Displacement.insertion before).checkLines_map extra behind opened
  rw [map_construct_insertion before above, finding_insertion] at moved
  refine ⟨severity_strayProblem _ c, (checkLines extra (sourceLines first) []).1,
    (checkLines extra behind opened).1 ++ unclosedFindings (openBehind opened behind),
    ?_, ?_, ?_, ?_⟩
  · rw [validate_eq_findingsOn, lines, findingsOn, checkLines_append, (checkLines_nesting _ _ _).1,
      openBehind_append, List.append_assoc]
  · intro f mem
    obtain ⟨line, inside, -, found⟩ := isFoundOn_of_mem_checkLines mem
    rw [found.line_eq]
    exact number_le_of_mem_sourceLines inside
  · intro f mem
    rcases List.mem_append.mp mem with mem | mem
    · obtain ⟨line, inside, -, found⟩ := isFoundOn_of_mem_checkLines mem
      rw [found.line_eq]
      exact Or.inl (numbers line inside)
    · obtain ⟨o, -, rfl⟩ := List.mem_map.mp mem
      exact Or.inr rfl
  · have onLines : (checkLines extra (sourceLines first ++ stray ::
          behind.map (Displacement.insertion before).line) []).1 =
        (checkLines extra (sourceLines first) []).1 ++ ⟨before + 1, 0, problem⟩ ::
          (checkLines extra behind opened).1.map (Finding.pushedDown before) := by
      rw [checkLines_append, checkLines_cons, filled, onStray, stays, moved]
      rfl
    have atEnd : openBehind [] (sourceLines first ++ stray ::
          behind.map (Displacement.insertion before).line) =
        (openBehind opened behind).map (Displacement.insertion before).construct := by
      rw [openBehind_append, openBehind_cons, stays, ← (checkLines_nesting extra _ _).1, moved,
        (checkLines_nesting extra behind opened).1]
    rw [validate_eq_findingsOn, inserted, findingsOn, onLines, (checkLines_nesting _ _ _).1, atEnd,
      Displacement.unclosedFindings_map, finding_insertion, List.map_append, List.append_assoc]
    rfl

/-- In a section, behind a type that is not known: the lines behind the stray end are still
    declarations, and the unit and the IF stay open. -/
theorem validate_strayEnd_section :
    let first := "PROGRAM P\nVAR (* all\n*) a : Ramp;".toList
    let second := " 1b : INT;\nEND_VAR\nIF a THEN\nx := 1".toList
    let found : List Finding := [⟨3, 8, .unknownType "Ramp".toList⟩, ⟨4, 2, .digitFirst⟩,
      ⟨7, 7, .missingSemicolon⟩, ⟨1, 0, .unclosed (.unit .program)⟩, ⟨6, 0, .unclosed .ifBlock⟩]
    endsInComment first = false ∧
      topOf (openBehind [] (sourceLines first)) = some .declarations ∧
      validate [] (first ++ '\n' :: second) = found ∧
      ∃ onFirst later, found = onFirst ++ later ∧
        validate [] (first ++ '\n' :: (endLine .whileLoop ++ '\n' :: second)) =
          onFirst ++ ⟨4, 0, .wrongEnd .declarations .whileLoop⟩ ::
            later.map (Finding.pushedDown 3) := by
  intro first second found
  have outside : endsInComment first = false := by decide
  have top : topOf (openBehind [] (sourceLines first)) = some .declarations := by decide
  have astray : topOf (openBehind [] (sourceLines first)) ≠ some .whileLoop := by
    rw [top]
    decide
  have whole : validate [] (first ++ '\n' :: second) = found := by decide
  have before : (physicalLines first).length = 3 := by decide
  obtain ⟨-, onFirst, later, parts, -, -, inserted⟩ := validate_strayEnd [] outside second astray
  rw [whole] at parts
  rw [top, before] at inserted
  exact ⟨outside, top, whole, onFirst, later, parts, inserted⟩

end StructuredText
