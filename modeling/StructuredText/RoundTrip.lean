import StructuredText.Expression.Writing
import StructuredText.Pou.Reading
import StructuredText.Pou.Writing

/- Writing, reading the text again, and writing that once more. -/
namespace StructuredText

structure RoundTrip where
  text : Text
  /-- The second reading gives the same tree. -/
  same : Bool
  second : Text
  deriving DecidableEq

def Pou.roundTrip? (pou : Pou) : Option RoundTrip := do
  let text ← pou.text?
  let again ← Pou.ofSource? text
  let second ← again.text?
  some ⟨text, pou.same again, second⟩

def Expression.roundTrip? (e : Expression) : Option RoundTrip := do
  let text ← e.text?
  let again := Expression.ofText text
  let second ← again.text?
  some ⟨text, e.same again, second⟩

end StructuredText
