import StructuredText.Diagram.Drawing

/- What drawing does, step by step.  An expression gets no node, the contact of an input or a new
   node, or its operands are drawn, and what they leave is closed or wired.  Statements are drawn part
   by part.  Whatever is to hold of a drawing is shown of these steps. -/
namespace StructuredText

namespace Expression

def symbol? : Expression → Option Symbol
  | .variable name => some (.contact name false (some false))
  | .literal (.bool value) => some (.contact (Literal.bool value).text value (some false))
  | .comparison op left right =>
    some (.contact (Expression.comparison op left right).text false (some false))
  | .call name arguments => some (callSymbol name arguments)
  | _ => none

def inputNode? (inputs : List (Text × Nat)) : Expression → Option Nat
  | .variable name => inputs.lookup name
  | _ => none

def ownLabels : Expression → List Expression
  | .comparison op left right => [.comparison op left right]
  | .call _ arguments => arguments
  | _ => []

end Expression

theorem Drawing.writing_nil (d : Drawing) : d.writing [] = d := by
  rw [writing, List.all_nil, Bool.and_true]

section Expression
variable (inputs : List (Text × Nat))

/-- How an expression is drawn that has no operands to be drawn: not at all, as the contact of an
    input, or as a new node. -/
inductive LeafDrawing : Expression → Drawing → List Nat × Drawing → Prop
  | silent {value : Literal} {d : Drawing} (unseen : ∀ b, value ≠ .bool b) :
    LeafDrawing (.literal value) d ([], d)
  | known {name : Text} {node : Nat} {d : Drawing} (found : inputs.lookup name = some node) :
    LeafDrawing (.variable name) d ([node], d)
  | fresh {e : Expression} {symbol : Symbol} {d : Drawing} (unknown : e.inputNode? inputs = none)
    (shape : e.symbol? = some symbol) :
    LeafDrawing e d ([d.draft.nodes.length], ((d.writing e.ownLabels).addLogic symbol).2)

variable {inputs} in
theorem LeafDrawing.unlabelled {e : Expression} {symbol : Symbol} (d : Drawing)
    (unknown : e.inputNode? inputs = none) (shape : e.symbol? = some symbol)
    (none : e.ownLabels = []) :
    LeafDrawing inputs e d ([d.draft.nodes.length], (d.addLogic symbol).2) := by
  have new := LeafDrawing.fresh (d := d) unknown shape
  rwa [none, d.writing_nil] at new

inductive ExpressionDrawing : (levels : Nat) → Expression → Drawing → List Nat × Drawing → Prop
  | cut {e : Expression} {d : Drawing} :
    ExpressionDrawing 0 e d ([], d.remark .expressionNotDrawn)
  | leaf {levels : Nat} {e : Expression} {d : Drawing} {drawn : List Nat × Drawing}
    (leaf : LeafDrawing inputs e d drawn) : ExpressionDrawing (levels + 1) e d drawn
  | negation {levels : Nat} {operand : Expression} {d d' : Drawing} {nodes : List Nat}
    (inner : ExpressionDrawing levels operand d (nodes, d')) :
    ExpressionDrawing (levels + 1) (.negation operand) d (nodes, d'.closeFirst nodes)
  | or {levels : Nat} {left right : Expression} {d d' d'' : Drawing} {lefts rights : List Nat}
    (first : ExpressionDrawing levels left d (lefts, d'))
    (second : ExpressionDrawing levels right d' (rights, d'')) :
    ExpressionDrawing (levels + 1) (.connective .or left right) d (lefts ++ rights, d'')
  | and {levels : Nat} {left right : Expression} {d d' d'' : Drawing} {lefts rights : List Nat}
    (first : ExpressionDrawing levels left d (lefts, d'))
    (second : ExpressionDrawing levels right d' (rights, d'')) :
    ExpressionDrawing (levels + 1) (.connective .and left right) d
      (lefts ++ rights, d''.connect lefts.getLast? rights.head?)

theorem drawExpression_drawing (levels : Nat) (e : Expression) (d : Drawing) :
    ExpressionDrawing inputs levels e d (drawExpression inputs levels e d) := by
  induction levels generalizing e d with
  | zero => exact .cut
  | succ levels ih =>
    cases e with
    | literal value =>
      cases value with
      | bool value => exact .leaf (.unlabelled d rfl rfl rfl)
      | int value => exact .leaf (.silent nofun)
      | real value => exact .leaf (.silent nofun)
      | string value => exact .leaf (.silent nofun)
    | «variable» name =>
      cases found : inputs.lookup name with
      | some node =>
        simp only [drawExpression, found]
        exact .leaf (.known found)
      | none =>
        simp only [drawExpression, found]
        exact .leaf (.unlabelled d found rfl rfl)
    | negation operand => exact .negation (ih operand d)
    | connective op left right =>
      cases op with
      | or => exact .or (ih left d) (ih right _)
      | and => exact .and (ih left d) (ih right _)
    | comparison op left right => exact .leaf (.fresh rfl rfl)
    | call name arguments => exact .leaf (.fresh rfl rfl)

end Expression

def Surface.drawnBranches (surface : Surface) (thenBranch elseBranch : Option (List Statement)) :
    List Statement :=
  thenBranch.getD [] ++ if surface.drawsElse then elseBranch.getD [] else []

/-- What is drawn of statements: the values of assignments and the conditions, each with the levels
    that are left for it, the calls, and a remark where no level is left. -/
inductive Part
  | assignment (levels : Nat) (target : Text) (value : Expression)
  | condition (levels : Nat) (e : Expression)
  | call (target : Text) (arguments : List Expression)
  | cutOff

def Part.draw (surface : Surface) : Part → Drawing → Drawing
  | .assignment levels target value, d => drawAssignment surface levels target value d
  | .condition levels e, d => drawCondition surface levels (some e) d
  | .call target arguments, d => drawCall surface target arguments d
  | .cutOff, d => d.remark .statementNotDrawn

def Statement.parts (surface : Surface) : (levels : Nat) → Statement → List Part
  | 0, s => if s.isDrawn then [.cutOff] else []
  | levels + 1, .assignment target value => [.assignment levels target value]
  | levels + 1, .conditional condition thenBranch elseBranch =>
    condition.toList.map (.condition levels) ++
      (surface.drawnBranches thenBranch elseBranch).flatMap (Statement.parts surface levels)
  | _ + 1, .call target _ arguments => [.call target arguments]
  | _ + 1, _ => []

def Pou.parts (pou : Pou) (drawsElse : Bool) : List Part :=
  pou.statements.flatMap (Statement.parts (pou.surface drawsElse).1 drawingLimit)

def drawParts (surface : Surface) (parts : List Part) (d : Drawing) : Drawing :=
  parts.foldl (fun d part => part.draw surface d) d

def drawAll (surface : Surface) (levels : Nat) (statements : List Statement) (d : Drawing) :
    Drawing :=
  statements.foldl (fun d s => drawStatement surface levels s d) d

section Parts
variable (surface : Surface)

theorem drawParts_append (first second : List Part) (d : Drawing) :
    drawParts surface (first ++ second) d = drawParts surface second (drawParts surface first d) :=
  List.foldl_append

theorem drawParts_condition (levels : Nat) (condition : Option Expression) (d : Drawing) :
    drawParts surface (condition.toList.map (.condition levels)) d =
      drawCondition surface levels condition d := by
  cases condition <;> rfl

theorem drawStatement_conditional (levels : Nat) (condition : Option Expression)
    (thenBranch elseBranch : Option (List Statement)) (d : Drawing) :
    drawStatement surface (levels + 1) (.conditional condition thenBranch elseBranch) d =
      drawAll surface levels (surface.drawnBranches thenBranch elseBranch)
        (drawCondition surface levels condition d) := by
  rw [drawAll, Surface.drawnBranches, List.foldl_append, drawStatement]
  cases surface.drawsElse <;> rfl

theorem drawAll_eq_drawParts {levels : Nat}
    (each : ∀ s d, drawStatement surface levels s d = drawParts surface (s.parts surface levels) d)
    (statements : List Statement) (d : Drawing) : drawAll surface levels statements d =
      drawParts surface (statements.flatMap (Statement.parts surface levels)) d := by
  induction statements generalizing d with
  | nil => rfl
  | cons s rest ih =>
    rw [List.flatMap_cons, drawParts_append, ← each, ← ih]
    rfl

theorem drawStatement_eq_drawParts (levels : Nat) (s : Statement) (d : Drawing) :
    drawStatement surface levels s d = drawParts surface (s.parts surface levels) d := by
  induction levels generalizing s d with
  | zero =>
    rw [drawStatement, Statement.parts]
    split <;> rfl
  | succ levels ih =>
    cases s with
    | conditional condition thenBranch elseBranch =>
      rw [drawStatement_conditional, Statement.parts, drawParts_append, drawParts_condition,
        drawAll_eq_drawParts surface ih]
    | _ => rfl

theorem draw_eq_drawParts (pou : Pou) (drawsElse : Bool) : pou.draw drawsElse =
    drawParts (pou.surface drawsElse).1 (pou.parts drawsElse) (pou.surface drawsElse).2 :=
  drawAll_eq_drawParts _ (drawStatement_eq_drawParts _ _) _ _

inductive PartDrawing : Part → Drawing → Drawing → Prop
  | assignment {levels : Nat} {target : Text} {value : Expression} {d d' : Drawing}
    {nodes : List Nat} (inner : ExpressionDrawing surface.inputs levels value d (nodes, d')) :
    PartDrawing (.assignment levels target value) d
      (d'.connect nodes.getLast? (surface.coils.lookup target)).nextRung
  | condition {levels : Nat} {e : Expression} {d d' : Drawing} {nodes : List Nat}
    (inner : ExpressionDrawing surface.inputs levels e d (nodes, d')) :
    PartDrawing (.condition levels e) d d'.nextRung
  | timer {target type : Text} {arguments : List Expression} {d : Drawing}
    (typed : surface.pou.timerType? target = some type) :
    PartDrawing (.call target arguments) d
      (d.addLogic (.timer target (timerPreset arguments) 0 (some type))).2.nextRung
  | call {target : Text} {arguments : List Expression} {d : Drawing}
    (untyped : surface.pou.timerType? target = none) :
    PartDrawing (.call target arguments) d
      ((d.writing arguments).addLogic (callSymbol target arguments)).2.nextRung
  | cutOff {d : Drawing} : PartDrawing .cutOff d (d.remark .statementNotDrawn)

theorem Part.drawing (part : Part) (d : Drawing) :
    PartDrawing surface part d (part.draw surface d) := by
  cases part with
  | assignment levels target value => exact .assignment (drawExpression_drawing _ levels value d)
  | condition levels e => exact .condition (drawExpression_drawing _ levels e d)
  | call target arguments =>
    rw [draw, drawCall]
    cases typed : surface.pou.timerType? target with
    | some type => exact .timer typed
    | none => exact .call typed
  | cutOff => exact .cutOff

end Parts
end StructuredText
