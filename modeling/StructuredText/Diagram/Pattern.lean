import StructuredText.Diagram.Draft
import StructuredText.Diagram.Grid
import StructuredText.Diagram.Recognition
import StructuredText.Remark
import StructuredText.Source.Line
import StructuredText.Vocabulary

/- Drawing from the look of the text alone: two programs known by their names, and lines that hold
   a timer, an AND/OR assignment or a call of a function block. -/
namespace StructuredText

def addRung (d : Draft Unit) (target : Text) (operands : List Text) : Draft Unit :=
  let first := d.nodes.length
  let d := operands.foldl (fun d operand => d.add () (operandSymbol operand)) d
  let d := d.add () (.coil target false (some true))
  (List.range operands.length).foldl (fun d i => d.connect (first + i) (first + i + 1)) d

def assignedExpression (value : Text) : Text := trim (withoutTrailing ';' value)

def addTimer (line : Text) (d : Draft Unit) : Draft Unit :=
  match search? timerCall? line with
  | some call => d.add () (.timer call.name call.preset 0 (some "TON".toList))
  | none => d

def addSeries (line : Text) (d : Draft Unit) : Draft Unit :=
  match search? assignmentAt? line with
  | none => d
  | some (target, value) =>
    match rungOperands? (assignedExpression value) with
    | none => d
    | some operands => addRung d target operands

/-- A line with a timer has no other call, and reserved words are no names of blocks. -/
def addBlock (line : Text) (d : Draft Unit) : Draft Unit :=
  if (search? timerCall? line).isSome then d
  else match search? blockCall? line with
    | none => d
    | some call => if isReserved call.name then d else d.add () call.symbol

def drawLine (d : Draft Unit) (line : Text) : Draft Unit :=
  addBlock line (addSeries line (addTimer line d))

def drawLines (lines : List Text) : Draft Unit := lines.foldl drawLine Draft.empty

def fixedChain (symbols : List ((Int × Int) × Symbol)) : Diagram Position :=
  let d : Draft Position := symbols.foldl
    (fun d (point, symbol) => d.add ⟨LReal.ofInt point.1, LReal.ofInt point.2⟩ symbol) Draft.empty
  ((List.range (symbols.length - 1)).foldl (fun d i => d.connect i (i + 1)) d).diagram

private def contactNamed (name : String) (closed : Bool) : Symbol :=
  .contact name.toList false (some closed)

def safetyMonitor : Diagram Position := fixedChain [
  ((100, 100), contactNamed "EmergencyStop" true),
  ((300, 100), contactNamed "LightCurtain" true),
  ((500, 100), .coil "SafetyRelay".toList false (some true))]

def conveyorMotor : Diagram Position := fixedChain [
  ((100, 100), contactNamed "SystemEnable" false),
  ((300, 100), contactNamed "EmergencyStop" true),
  ((500, 80), .functionBlock "ConveyorMotor".toList
    (["Start", "Stop", "Speed"].map String.toList) (["Running", "Fault"].map String.toList)
    (some "rockwell".toList))]

/-- A program known by the names in it.  Letters count alike in both cases, those of ASCII alone:
    no other letter is the capital of one in these names. -/
def knownProgram? (source : Text) : Option (Diagram Position) :=
  let small := source.map Char.toLower
  if containsText "systemsafe".toList small && containsText "emergencystop".toList small then
    some safetyMonitor
  else if containsText "conveyormotor".toList small then some conveyorMotor
  else none

def patternDraft (source : Text) : Draft Unit := drawLines (lineTexts source)

def patternDiagram (source : Text) : Diagram Position :=
  match knownProgram? source with
  | some diagram => diagram
  | none =>
    let d := patternDraft source
    ⟨Grid.standard.arrange d.nodes, d.edges⟩

def patternRemarks (source : Text) : List Remark :=
  match knownProgram? source with
  | some _ => []
  | none =>
    [.drawnFromPatterns (patternDraft source).nodes.length (patternDraft source).edges.length]

end StructuredText
