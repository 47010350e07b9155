import StructuredText.Diagram.Ladder
import StructuredText.Diagram.Source
import StructuredText.Diagram.Step
import StructuredText.Document.Diagram
import StructuredText.Document.Pou
import StructuredText.Proofs.Conditional.Tail
import StructuredText.Proofs.Diagram.Series
import StructuredText.Proofs.Pou.RoundTrip
import StructuredText.Proofs.Validation.Agreement
import StructuredText.Proofs.Validation.WellNested
import StructuredText.RoundTrip
import StructuredText.Snippet
import StructuredText.Source.Cursor
import StructuredText.Validation
import StructuredText.Proofs.Pou.SingleLines
import StructuredText.Proofs.Validation.Sections
import StructuredText.Proofs.Pou.Ordinary
import StructuredText.Proofs.Text.Words
import StructuredText.Proofs.Expression.Written
import StructuredText.Proofs.Validation.CodeLine
import StructuredText.Proofs.Validation.WrittenLine
import StructuredText.Proofs.Validation.WrittenUnit
import StructuredText.Proofs.Pou.Reread
import StructuredText.Proofs.Conditional.Listing
import StructuredText.Proofs.Diagram.Whole
import StructuredText.Proofs.Diagram.Wiring
import StructuredText.Proofs.Diagram.Cells
import StructuredText.Proofs.Source.Comments
import StructuredText.Proofs.Validation.Spacing
import StructuredText.Proofs.Diagram.Names
import StructuredText.Proofs.Diagram.Numbering
import StructuredText.Proofs.Diagram.Rendered
import StructuredText.Proofs.Diagram.Coils
import StructuredText.Proofs.Diagram.SeriesPath
import StructuredText.Proofs.Validation.Location
import StructuredText.Proofs.Conditional.Condition
import StructuredText.Proofs.Validation.LineOrder
import StructuredText.Proofs.Expression.NumberText
import StructuredText.Proofs.Validation.Exemption
import StructuredText.Proofs.Validation.Literal
import StructuredText.Proofs.Expression.NameOrder
import StructuredText.Proofs.Conditional.Limits
import StructuredText.Proofs.Pou.Quoted
import StructuredText.Proofs.Validation.Positional
import StructuredText.Proofs.Diagram.Paths
import StructuredText.Proofs.Validation.ExtraTypes
import StructuredText.Proofs.Validation.StrayEnd
import StructuredText.Proofs.Diagram.Timers
import StructuredText.Proofs.DurationLiteral
import StructuredText.Proofs.Source.Idempotence
import StructuredText.Proofs.Source.Positions
import StructuredText.Proofs.Pou.UnitSequence
import StructuredText.Proofs.Source.Separators
import StructuredText.Proofs.Expression.TopWords
