import StructuredText.Diagram.Grid
import StructuredText.Diagram.Ladder
import StructuredText.Diagram.Layout
import StructuredText.Document

/- Diagrams as documents: in full, and in the form for a renderer, which leaves out what is null
   and spells the handles of edges in another way. -/
namespace StructuredText

namespace Position

def ofDocument? (d : Document) : Option Position := do
  let x ← d.required? "x" Document.real?
  let y ← d.required? "y" Document.real?
  some ⟨x, y⟩

def document (p : Position) : Document := .ofFields [("x", .real p.x), ("y", .real p.y)]

end Position

namespace Symbol

def typeName : Symbol → String
  | .contact .. => "contact"
  | .coil .. => "coil"
  | .timer .. => "timer"
  | .functionBlock .. => "functionBlock"

def readContact? (d : Document) : Option Symbol := do
  let label ← d.required? "label" Document.text?
  let state ← d.optional? "state" false Document.bool?
  let closed ← d.optional? "normally_closed" none (Document.nullable? Document.bool?)
  some (.contact label state closed)

def readCoil? (d : Document) : Option Symbol := do
  let label ← d.required? "label" Document.text?
  let state ← d.optional? "state" false Document.bool?
  let normallyOpen ← d.optional? "normally_open" none (Document.nullable? Document.bool?)
  some (.coil label state normallyOpen)

def readTimer? (d : Document) : Option Symbol := do
  let label ← d.required? "label" Document.text?
  let preset ← d.required? "preset" Document.int?
  let accumulated ← d.optional? "accumulated" 0 Document.int?
  let type ← d.optional? "type" none (Document.nullable? Document.text?)
  some (.timer label preset accumulated type)

def readFunctionBlock? (d : Document) : Option Symbol := do
  let label ← d.required? "label" Document.text?
  let inputs ← d.optional? "inputs" [] (Document.list? Document.text?)
  let outputs ← d.optional? "outputs" [] (Document.list? Document.text?)
  let vendor ← d.optional? "vendor" none (Document.nullable? Document.text?)
  some (.functionBlock label inputs outputs vendor)

def ofDocument? (type data : Document) : Option Symbol :=
  if type.isString "contact" then readContact? data
  else if type.isString "coil" then readCoil? data
  else if type.isString "timer" then readTimer? data
  else if type.isString "functionBlock" then readFunctionBlock? data
  else none

def fields : Symbol → List (String × Document)
  | .contact label state closed => [
      ("label", .text label), ("state", .bool state), ("normally_closed", .ofNullable .bool closed)]
  | .coil label state normallyOpen => [
      ("label", .text label), ("state", .bool state),
      ("normally_open", .ofNullable .bool normallyOpen)]
  | .timer label preset accumulated type => [
      ("label", .text label), ("preset", .int preset), ("accumulated", .int accumulated),
      ("type", .ofNullable .text type)]
  | .functionBlock label inputs outputs vendor => [
      ("label", .text label), ("inputs", .ofTexts inputs), ("outputs", .ofTexts outputs),
      ("vendor", .ofNullable .text vendor)]

end Symbol

namespace Document

def isNull : Document → Bool
  | .null => true
  | _ => false

def ofSetFields (fields : List (String × Document)) : Document :=
  .ofFields (fields.filter fun (_, value) => !value.isNull)

def eitherField? (d : Document) (name other : String) : Option Document :=
  match d.field? name with
  | some value => some value
  | none => d.field? other

end Document

namespace Node

def contentOfDocument? (d : Document) : Option (Position × Symbol) := do
  let position ← d.required? "position" Position.ofDocument?
  let type ← d.field? "type"
  let data ← d.field? "data"
  let symbol ← Symbol.ofDocument? type data
  some (position, symbol)

def ofDocument? (d : Document) : Option (Node Position) := do
  let id ← d.required? "id" Document.text?
  let (position, symbol) ← contentOfDocument? d
  some ⟨id, position, symbol⟩

def withData (n : Node Position) (data : Document) : Document := .ofFields [
  ("type", .ofString n.symbol.typeName), ("id", .text n.id), ("position", n.place.document),
  ("data", data)]

def document (n : Node Position) : Document := n.withData (.ofFields n.symbol.fields)

def rendered (n : Node Position) : Document := n.withData (.ofSetFields n.symbol.fields)

end Node

namespace Edge

/-- Handles may be spelled in both ways. -/
def ofDocument? (d : Document) : Option Edge := do
  let id ← d.required? "id" Document.text?
  let source ← d.required? "source" Document.text?
  let target ← d.required? "target" Document.text?
  let handle (name other : String) : Option (Option Text) :=
    Document.nullable? Document.text? ((d.eitherField? name other).getD .null)
  let sourceHandle ← handle "sourceHandle" "source_handle"
  let targetHandle ← handle "targetHandle" "target_handle"
  let type ← d.optional? "type" (some "smoothstep".toList) (Document.nullable? Document.text?)
  some ⟨id, source, target, sourceHandle, targetHandle, type⟩

def fields (sourceName targetName : String) (e : Edge) : List (String × Document) := [
  ("id", .text e.id), ("source", .text e.source), ("target", .text e.target),
  (sourceName, .ofNullable .text e.sourceHandle), (targetName, .ofNullable .text e.targetHandle),
  ("type", .ofNullable .text e.type)]

def document (e : Edge) : Document := .ofFields (e.fields "source_handle" "target_handle")

def rendered (e : Edge) : Document := .ofSetFields (e.fields "sourceHandle" "targetHandle")

end Edge

namespace Diagram

def ofDocument? (d : Document) : Option (Diagram Position) :=
  if d.isObject then do
    let nodes ← d.optional? "nodes" [] (Document.list? Node.ofDocument?)
    let edges ← d.optional? "edges" [] (Document.list? Edge.ofDocument?)
    some ⟨nodes, edges⟩
  else none

def document (d : Diagram Position) : Document := .ofFields [
  ("nodes", .list (d.nodes.map Node.document)), ("edges", .list (d.edges.map Edge.document))]

def rendered (d : Diagram Position) : Document := .ofFields [
  ("nodes", .list (d.nodes.map Node.rendered)), ("edges", .list (d.edges.map Edge.rendered))]

end Diagram

def ladderOfDocuments? (tags : List Document) : Option (Diagram Position) :=
  ((pairs tags).mapM fun (contact, coil) => do
    let contact ← Document.text? contact
    let coil ← Document.text? coil
    some (contact, coil)).map ladder

namespace Layout

def ofDocument? (d : Document) : Option Layout :=
  if d.isObject then do
    let inputX ← d.optional? "input_x" standard.inputX Document.real?
    let logicX ← d.optional? "logic_x" standard.logicX Document.real?
    let coilX ← d.optional? "coil_x" standard.coilX Document.real?
    let blockX ← d.optional? "block_x" standard.blockX Document.real?
    let startY ← d.optional? "start_y" standard.startY Document.real?
    let rowSpacing ← d.optional? "row_spacing" standard.rowSpacing Document.real?
    let seriesSpacing ← d.optional? "series_spacing" standard.seriesSpacing Document.real?
    let drawsElse ← d.optional? "walk_else_branches" standard.drawsElse Document.bool?
    let fallsBack ← d.optional? "fallback_to_patterns" standard.fallsBack Document.bool?
    let raster : Raster LReal :=
      ⟨inputX, logicX, coilX, blockX, startY, rowSpacing, seriesSpacing⟩
    some ⟨raster, drawsElse, fallsBack⟩
  else none

def document (layout : Layout) : Document := .ofFields [
  ("input_x", .real layout.inputX), ("logic_x", .real layout.logicX),
  ("coil_x", .real layout.coilX), ("block_x", .real layout.blockX),
  ("start_y", .real layout.startY), ("row_spacing", .real layout.rowSpacing),
  ("series_spacing", .real layout.seriesSpacing), ("walk_else_branches", .bool layout.drawsElse),
  ("fallback_to_patterns", .bool layout.fallsBack)]

end Layout

namespace Grid

/-- What is given of a grid are real numbers, what is not given stays whole. -/
def ofDocument? (d : Document) : Option Grid := do
  let extent? (given : Document) : Option Extent := given.real?.map .real
  let perRow ← d.optional? "per_row" standard.perRow Document.int?
  let xSpacing ← d.optional? "x_spacing" standard.xSpacing extent?
  let ySpacing ← d.optional? "y_spacing" standard.ySpacing extent?
  let startX ← d.optional? "start_x" standard.startX extent?
  let startY ← d.optional? "start_y" standard.startY extent?
  some ⟨perRow, xSpacing, ySpacing, startX, startY⟩

end Grid
end StructuredText
