import StructuredText.Diagram.Draft
import StructuredText.Diagram.Layout
import StructuredText.Duration
import StructuredText.Expression.Writing
import StructuredText.Remark
import StructuredText.Vocabulary

/- Drawing a unit as a ladder diagram: the unit's own block, a contact per input, a coil per
   assigned variable, and the statements rung by rung.  AND is a wire in series, NOT closes a
   contact; the sides of an OR are drawn without a wire between them. -/
namespace StructuredText

structure Drawing where
  draft : Draft Spot
  rung : Nat
  column : Nat
  remarks : List Remark
  /-- Every label could be written. -/
  isWritable : Bool

structure Surface where
  pou : Pou
  inputs : List (Text × Nat)
  coils : List (Text × Nat)
  drawsElse : Bool

namespace Drawing

def start : Drawing := ⟨Draft.empty, 0, 0, [], true⟩

def addLogic (d : Drawing) (symbol : Symbol) : Nat × Drawing :=
  (d.draft.nodes.length,
    { d with draft := d.draft.add (.logic d.rung d.column) symbol, column := d.column + 1 })

def nextRung (d : Drawing) : Drawing := { d with rung := d.rung + 1, column := 0 }

def remark (d : Drawing) (r : Remark) : Drawing := { d with remarks := d.remarks ++ [r] }

def writing (d : Drawing) (es : List Expression) : Drawing :=
  { d with isWritable := d.isWritable && es.all (·.isWritable) }

def connect (d : Drawing) (source target : Option Nat) : Drawing :=
  match source, target with
  | some s, some t => { d with draft := d.draft.connect s t }
  | _, _ => d

def closeFirst (d : Drawing) (nodes : List Nat) : Drawing :=
  match nodes.head? with
  | some i => { d with draft := d.draft.closeContact i }
  | none => d

end Drawing

def callSymbol (name : Text) (arguments : List Expression) : Symbol :=
  .functionBlock name (arguments.map (·.text)) [] none

/-- Draws an expression of which `levels` levels may be drawn; the nodes are those that stand for
    it, in the order of drawing. -/
def drawExpression (inputs : List (Text × Nat)) :
    (levels : Nat) → Expression → Drawing → List Nat × Drawing
  | 0, _, d => ([], d.remark .expressionNotDrawn)
  | _ + 1, .variable name, d =>
    match inputs.lookup name with
    | some node => ([node], d)
    | none =>
      let (node, d) := d.addLogic (.contact name false (some false))
      ([node], d)
  | _ + 1, .literal (.bool value), d =>
    let (node, d) := d.addLogic (.contact (Literal.bool value).text value (some false))
    ([node], d)
  | _ + 1, .literal _, d => ([], d)
  | levels + 1, .negation operand, d =>
    let (nodes, d) := drawExpression inputs levels operand d
    (nodes, d.closeFirst nodes)
  | levels + 1, .connective op left right, d =>
    let (lefts, d) := drawExpression inputs levels left d
    let (rights, d) := drawExpression inputs levels right d
    (lefts ++ rights, if op = .and then d.connect lefts.getLast? rights.head? else d)
  | _ + 1, .comparison op left right, d =>
    let e := Expression.comparison op left right
    let (node, d) := (d.writing [e]).addLogic (.contact e.text false (some false))
    ([node], d)
  | _ + 1, .call name arguments, d =>
    let (node, d) := (d.writing arguments).addLogic (callSymbol name arguments)
    ([node], d)

def timerPreset (arguments : List Expression) : Nat :=
  (arguments.findSome? fun
    | .variable name => duration? name
    | _ => none).getD 0

def Pou.timerType? (pou : Pou) (name : Text) : Option Text :=
  match pou.variableNamed? name with
  | none => none
  | some v => if timerTypes.contains (upper v.type) then some (upper v.type) else none

def drawCall (surface : Surface) (target : Text) (arguments : List Expression) (d : Drawing) :
    Drawing :=
  match surface.pou.timerType? target with
  | some type => (d.addLogic (.timer target (timerPreset arguments) 0 (some type))).2.nextRung
  | none => ((d.writing arguments).addLogic (callSymbol target arguments)).2.nextRung

def drawAssignment (surface : Surface) (levels : Nat) (target : Text) (value : Expression)
    (d : Drawing) : Drawing :=
  let (nodes, d) := drawExpression surface.inputs levels value d
  (d.connect nodes.getLast? (surface.coils.lookup target)).nextRung

def drawCondition (surface : Surface) (levels : Nat) (condition : Option Expression)
    (d : Drawing) : Drawing :=
  match condition with
  | none => d
  | some e => (drawExpression surface.inputs levels e d).2.nextRung

/-- Loops and returns have no place in a ladder. -/
def Statement.isDrawn : Statement → Bool
  | .assignment .. | .conditional .. | .call .. => true
  | _ => false

def drawStatement (surface : Surface) : (levels : Nat) → Statement → Drawing → Drawing
  | 0, statement, d => if statement.isDrawn then d.remark .statementNotDrawn else d
  | levels + 1, .assignment target value, d => drawAssignment surface levels target value d
  | levels + 1, .conditional condition thenBranch elseBranch, d =>
    let d := drawCondition surface levels condition d
    let d := (thenBranch.getD []).foldl (fun d s => drawStatement surface levels s d) d
    if surface.drawsElse then
      (elseBranch.getD []).foldl (fun d s => drawStatement surface levels s d) d
    else d
  | _ + 1, .call target _ arguments, d => drawCall surface target arguments d
  | _ + 1, _, d => d

/-- The targets of the assignments inside fewer than `levels` conditionals, both branches. -/
def assignedTargets : (levels : Nat) → Statement → List Text
  | 0, _ => []
  | _ + 1, .assignment target _ => [target]
  | levels + 1, .conditional _ thenBranch elseBranch =>
    (thenBranch.getD []).flatMap (assignedTargets levels) ++
      (elseBranch.getD []).flatMap (assignedTargets levels)
  | _ + 1, _ => []

/-- The variables that get a coil: outputs and internal ones that are assigned, each name once. -/
def Pou.coilNames (pou : Pou) : List Text :=
  let targets := pou.statements.flatMap (assignedTargets drawingLimit)
  ((pou.declared.filter fun v =>
    (v.role = .output || v.role = .internal) && targets.contains v.name).map (·.name)).eraseDups

/-- A unit with a result type has its own name among the outputs. -/
def Pou.blockSymbol (pou : Pou) : Symbol :=
  let result := if (pou.returnType.getD []).isEmpty then [] else [pou.name]
  .functionBlock pou.name (pou.inputs.map (·.name)) (pou.outputs.map (·.name) ++ result) none

def inputNodes (names : List Text) : List (Spot × Symbol) :=
  names.mapIdx fun row name => (.input row, .contact name false (some false))

def coilNodes (names : List Text) : List (Spot × Symbol) :=
  names.mapIdx fun row name => (.coil row, .coil name false (some true))

def Draft.addAll {Place : Type} (d : Draft Place) (content : List (Place × Symbol)) : Draft Place :=
  content.foldl (fun d (place, symbol) => d.add place symbol) d

def numberedFrom (start : Nat) (names : List Text) : List (Text × Nat) :=
  names.mapIdx fun i name => (name, start + i)

/-- The drawing before any statement, and what the statements are drawn against.  Of two inputs of
    one name the later one counts. -/
def Pou.surface (pou : Pou) (drawsElse : Bool) : Surface × Drawing :=
  let inputNames := pou.inputs.map (·.name)
  let draft := Draft.empty.addAll
    ((.unit, pou.blockSymbol) :: inputNodes inputNames ++ coilNodes pou.coilNames)
  (⟨pou, (numberedFrom 1 inputNames).reverse,
    numberedFrom (1 + inputNames.length) pou.coilNames, drawsElse⟩,
    { Drawing.start with draft })

def Pou.draw (pou : Pou) (drawsElse : Bool) : Drawing :=
  let (surface, d) := pou.surface drawsElse
  pou.statements.foldl (fun d s => drawStatement surface drawingLimit s d) d

/-- The diagram of a unit, unless some label cannot be written. -/
def Layout.diagram? (layout : Layout) (pou : Pou) : Option (Diagram Position) :=
  let d := pou.draw layout.drawsElse
  if d.isWritable then some (d.draft.diagram.mapPlaces layout.position) else none

def Layout.remarks (layout : Layout) (pou : Pou) : List Remark :=
  let d := pou.draw layout.drawsElse
  d.remarks ++ [.drawn pou.name d.draft.nodes.length d.draft.edges.length]

end StructuredText
