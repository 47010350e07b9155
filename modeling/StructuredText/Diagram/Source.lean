import StructuredText.Diagram.Drawing
import StructuredText.Diagram.Pattern
import StructuredText.Pou.Reading

/- The diagram of a source text. -/
namespace StructuredText

/-- A source without a unit gives an empty diagram, or one drawn from patterns. -/
def Layout.diagramOfSource? (layout : Layout) (source : Text) : Option (Diagram Position) :=
  match Pou.ofSource? source with
  | some pou => layout.diagram? pou
  | none => some (if layout.fallsBack then patternDiagram source else Diagram.empty)

def Layout.remarksOfSource (layout : Layout) (source : Text) : List Remark :=
  let reading := Reading.ofSource source
  reading.remarks ++
    match reading.pou with
    | some pou => layout.remarks pou
    | none => if layout.fallsBack then .fellBack :: patternRemarks source else []

end StructuredText
