import StructuredText.Proofs.Source.Blanks
import StructuredText.Proofs.Validation.Quiet

/- Lines in another place.  A check looks at the text of a line and at what is open; where the line
   stands it only passes on.  So what is found moves with the lines, and of a source in two parts
   each is checked for itself if the first leaves nothing open. -/
namespace StructuredText

/-- Lines are put before some lines of a source, and blanks in front of some of them: how far a line,
    by its number before, goes down and to the right. -/
structure Displacement where
  down : Nat → Nat
  right : Nat → Nat

namespace Displacement
variable (d : Displacement)

def line (l : Line) : Line :=
  { l.movedRight (d.right l.number) with number := l.number + d.down l.number }

def finding (f : Finding) : Finding :=
  ⟨f.line + d.down f.line, if f.column = 0 then 0 else f.column + d.right f.line, f.problem⟩

def construct (o : OpenConstruct) : OpenConstruct := ⟨o.construct, o.line + d.down o.line⟩

section Line
variable {l : Line} (filled : l.text.isEmpty = false)

@[simp]
theorem text_line (l : Line) : (d.line l).text = l.text := rfl

@[simp]
theorem number_line (l : Line) : (d.line l).number = l.number + d.down l.number := rfl

include filled

theorem finding_line (offset : Nat) (problem : Problem) :
    (d.line l).finding offset problem = d.finding (l.finding offset problem) := by
  have column : (d.line l).column offset = l.column offset + d.right l.number := by
    simp only [line, Line.movedRight, Line.column, filled, Bool.false_eq_true, if_false]
    omega
  rw [Line.finding, column]
  rfl

theorem checkSemicolon_line : checkSemicolon (d.line l) = (checkSemicolon l).map d.finding := by
  rw [checkSemicolon, checkSemicolon, text_line, d.finding_line filled,
    apply_ite (List.map d.finding)]
  rfl

theorem checkDeclaration_line (extra : List Text) :
    checkDeclaration extra (d.line l) = (checkDeclaration extra l).map d.finding := by
  simp only [checkDeclaration, text_line, d.finding_line filled]
  cases declaration? l.text with
  | none => rfl
  | some declared =>
    dsimp only
    rw [List.map_append]
    congr 1 <;> split <;> rfl

theorem checkAssignment_line (inCase : Bool) :
    checkAssignment inCase (d.line l) = (checkAssignment inCase l).map d.finding := by
  simp only [checkAssignment, text_line, d.finding_line filled]
  split
  · rfl
  · split
    · rfl
    · split
      · rfl
      · rw [List.map_append]
        congr 1 <;> split <;> rfl

theorem checkParameters_line (start : Nat) (parameters : Text) :
    checkParameters (d.line l) start parameters =
      (checkParameters l start parameters).map d.finding := by
  rw [checkParameters, checkParameters, List.map_filterMap]
  congr 1
  funext entry
  obtain ⟨⟨offset, parameter⟩, number⟩ := entry
  simp only [d.finding_line filled]
  split <;> rfl

theorem checkCall_line : checkCall (d.line l) = (checkCall l).map d.finding := by
  simp only [checkCall, text_line, d.finding_line filled, d.checkParameters_line filled]
  split
  · rfl
  · split
    · rfl
    · rw [List.map_append]
      congr 1
      · split <;> rfl
      · split
        · rfl
        · split <;> rfl

end Line

theorem closeConstruct_line (number : Nat) (found : Construct) (stack : List OpenConstruct) :
    closeConstruct (number + d.down number) found (stack.map d.construct) =
      ((closeConstruct number found stack).1.map d.finding,
        (closeConstruct number found stack).2.map d.construct) := by
  cases stack with
  | nil => rfl
  | cons top rest =>
    have same : (d.construct top).construct = top.construct := rfl
    rw [List.map_cons, closeConstruct, closeConstruct, same]
    split <;> rfl

theorem checkNesting_line (l : Line) (stack : List OpenConstruct) :
    checkNesting (d.line l) (stack.map d.construct) =
      ((checkNesting l stack).1.map d.finding, (checkNesting l stack).2.map d.construct) := by
  have pushed : (opened? l.text).toList.map (OpenConstruct.mk · (l.number + d.down l.number)) ++
        stack.map d.construct =
      ((opened? l.text).toList.map (OpenConstruct.mk · l.number) ++ stack).map d.construct := by
    rw [List.map_append, List.map_map]
    rfl
  simp only [checkNesting, text_line, number_line, pushed]
  cases closed? l.text with
  | none => rfl
  | some found => exact d.closeConstruct_line l.number found _

theorem checkLine_line (extra : List Text) {l : Line} (filled : l.text.isEmpty = false)
    (stack : List OpenConstruct) : checkLine extra (d.line l) (stack.map d.construct) =
      ((checkLine extra l stack).1.map d.finding, (checkLine extra l stack).2.map d.construct) := by
  have top (stack : List OpenConstruct) :
      (stack.map d.construct).head?.map (·.construct) = stack.head?.map (·.construct) := by
    cases stack <;> rfl
  simp only [checkLine, d.checkNesting_line, top, d.checkSemicolon_line filled,
    d.checkCall_line filled, d.checkDeclaration_line filled, d.checkAssignment_line filled]
  split <;> simp only [List.map_append]

/-- Along all lines the findings, and what is open, move as the lines do. -/
theorem checkLines_map (extra : List Text) (lines : List Line) (stack : List OpenConstruct) :
    checkLines extra (lines.map d.line) (stack.map d.construct) =
      ((checkLines extra lines stack).1.map d.finding,
        (checkLines extra lines stack).2.map d.construct) := by
  induction lines generalizing stack with
  | nil => rfl
  | cons l rest ih =>
    rw [List.map_cons, checkLines, checkLines, text_line]
    cases filled : l.text.isEmpty with
    | true => exact ih stack
    | false =>
      simp only [Bool.false_eq_true, if_false, d.checkLine_line extra filled, ih, List.map_append]

theorem unclosedFindings_map (stack : List OpenConstruct) :
    unclosedFindings (stack.map d.construct) = (unclosedFindings stack).map d.finding := by
  simp only [unclosedFindings, ← List.map_reverse, List.map_map]
  rfl

end Displacement

def findingsOn (extra : List Text) (lines : List Line) : List Finding :=
  (checkLines extra lines []).1 ++ unclosedFindings (checkLines extra lines []).2

theorem validate_eq_findingsOn (extraTypes : List Text) (source : Text) :
    validate extraTypes source = findingsOn (extraTypes.map upper) (sourceLines source) := rfl

theorem findingsOn_map (d : Displacement) (extra : List Text) (lines : List Line) :
    findingsOn extra (lines.map d.line) = (findingsOn extra lines).map d.finding := by
  have moved := d.checkLines_map extra lines []
  rw [List.map_nil] at moved
  rw [findingsOn, findingsOn, moved, d.unclosedFindings_map, List.map_append]

theorem findingsOn_append (extra : List Text) {first : List Line}
    (closed : openBehind [] first = []) (second : List Line) :
    findingsOn extra (first ++ second) = findingsOn extra first ++ findingsOn extra second := by
  have left : findingsOn extra first = (checkLines extra first []).1 := by
    rw [findingsOn, (checkLines_nesting extra first []).1, closed]
    exact List.append_nil _
  have behind : (checkLines extra (first ++ second) []).2 = (checkLines extra second []).2 := by
    rw [(checkLines_nesting extra _ []).1, openBehind_append, closed,
      (checkLines_nesting extra second []).1]
  rw [findingsOn, checkLines_append, closed, behind, List.append_assoc, left]
  rfl

def reportsUnclosed (extraTypes : List Text) (source : Text) : Bool :=
  (validate extraTypes source).any fun f => "Unclosed ".toList.isPrefixOf f.problem.message

theorem openBehind_of_closed {extraTypes : List Text} {source : Text}
    (closed : reportsUnclosed extraTypes source = false) :
    openBehind [] (sourceLines source) = [] := by
  rw [← (checkLines_nesting (extraTypes.map upper) (sourceLines source) []).1]
  apply List.eq_nil_iff_forall_not_mem.mpr
  intro o mem
  have reported : (⟨o.line, 0, .unclosed o.construct⟩ : Finding) ∈ validate extraTypes source :=
    List.mem_append_right _ (List.mem_map_of_mem (List.mem_reverse.mpr mem))
  exact List.any_eq_false.mp closed _ reported rfl

theorem linesFrom_add (number before : Nat) (start : Region) (raw : List Text) :
    linesFrom (number + before) start raw =
      (linesFrom number start raw).map (Displacement.line ⟨fun _ => before, fun _ => 0⟩) := by
  induction raw generalizing number start with
  | nil => rfl
  | cons line rest ih =>
    have here : Line.ofCleaned (number + before) (cleanLine start line) =
        Displacement.line ⟨fun _ => before, fun _ => 0⟩
          (Line.ofCleaned number (cleanLine start line)) := by
      rw [Displacement.line, Line.movedRight_zero]
      rfl
    rw [linesFrom, linesFrom, List.map_cons, here, Nat.add_right_comm, ih]

/-- A source in two parts, the first of which leaves no construct and no comment open: what is found
    is what is found in the parts, where in the second the lines are counted on. -/
theorem validate_append (extraTypes : List Text) {first : Text}
    (closed : reportsUnclosed extraTypes first = false) (outside : endsInComment first = false)
    (second : Text) : validate extraTypes (first ++ '\n' :: second) =
      validate extraTypes first ++
        (validate extraTypes second).map fun f =>
          { f with line := f.line + (physicalLines first).length } := by
  have lines : sourceLines (first ++ '\n' :: second) = sourceLines first ++
      (sourceLines second).map
        (Displacement.line ⟨fun _ => (physicalLines first).length, fun _ => 0⟩) := by
    rw [sourceLines, physicalLines_append, linesFrom_append, regionBehind_eq_code outside,
      linesFrom_add]
    rfl
  have moved : Displacement.finding ⟨fun _ => (physicalLines first).length, fun _ => 0⟩ =
      fun f => { f with line := f.line + (physicalLines first).length } := by
    funext f
    have stays : (if f.column = 0 then 0 else f.column + 0) = f.column := by
      split
      · next whole => exact whole.symm
      · rfl
    rw [Displacement.finding, stays]
  simp only [validate_eq_findingsOn, lines, findingsOn_append _ (openBehind_of_closed closed),
    findingsOn_map, moved]

theorem validate_append_wrongEnd :
    let first := "PROGRAM P\nEND_IF\nEND_PROGRAM".toList
    let second := "IF a THEN (* if *)\n  x := 1".toList
    reportsUnclosed [] first = false ∧ endsInComment first = false ∧
      validate [] (first ++ '\n' :: second) =
        [⟨2, 0, .wrongEnd (.unit .program) .ifBlock⟩, ⟨5, 9, .missingSemicolon⟩,
          ⟨4, 0, .unclosed .ifBlock⟩] := by
  intro first second
  have closed : reportsUnclosed [] first = false := by decide
  have outside : endsInComment first = false := by decide
  have inFirst : validate [] first = [⟨2, 0, .wrongEnd (.unit .program) .ifBlock⟩] := by
    decide
  have inSecond : validate [] second = [⟨2, 9, .missingSemicolon⟩, ⟨1, 0, .unclosed .ifBlock⟩] := by
    decide
  have counted : (physicalLines first).length = 3 := by decide
  refine ⟨closed, outside, ?_⟩
  rw [validate_append [] closed outside, inFirst, inSecond, counted]
  rfl

end StructuredText
