import StructuredText.Diagram.Draft
import StructuredText.Diagram.Grid
import StructuredText.Index

/- Building a diagram step by step.  A step may fail; the next one goes on from what is there. -/
namespace StructuredText

inductive Step
  /-- Adds a symbol at a position, unless what was given for them does not fit. -/
  | add (content : Option (Position × Symbol))
  /-- Wires two nodes, given by their numbers in the list. -/
  | connect (source target : Int)
  | takeNodeId
  | takeEdgeId
  | arrange (grid : Grid)
  | render

inductive StepAnswer
  | node (node : Node Position)
  | edge (edge : Edge)
  | id (id : Text)
  | positions (positions : List Position)
  | diagram (diagram : Diagram Position)
  | unfit
  | noSuchNode
  | emptyRows

/-- Content that does not fit still uses up a node number; a node that is not there uses up no edge
    number. -/
def Step.run (d : Draft Position) : Step → StepAnswer × Draft Position
  | .add none => (.unfit, d.numberNode)
  | .add (some (position, symbol)) =>
    (.node ⟨nodeId (d.nodesNumbered + 1), position, symbol⟩, d.add position symbol)
  | .connect source target =>
    match index? d.nodes.length source, index? d.nodes.length target with
    | some s, some t => (.edge (d.wire d.nodes[s] d.nodes[t]), d.connect s t)
    | _, _ => (.noSuchNode, d)
  | .takeNodeId => (.id (nodeId (d.nodesNumbered + 1)), d.numberNode)
  | .takeEdgeId => (.id (edgeId (d.edgesNumbered + 1)), d.numberEdge)
  | .arrange grid =>
    match grid.arrange? d.nodes with
    | none => (.emptyRows, d)
    | some nodes => (.positions (nodes.map (·.place)), { d with nodes })
  | .render => (.diagram d.diagram, d)

def Step.runAll (d : Draft Position) : List Step → List StepAnswer × Draft Position
  | [] => ([], d)
  | step :: rest =>
    let (answer, d) := step.run d
    let (answers, d) := Step.runAll d rest
    (answer :: answers, d)

end StructuredText
