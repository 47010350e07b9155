import StructuredText.Text.Blank
import StructuredText.Text.Word

/- `name : type` at the start of a line. -/
namespace StructuredText

structure Declaration where
  name : Text
  type : Text
  /-- Where in the line the type stands. -/
  typeOffset : Nat
  /-- What follows the type. -/
  rest : Text

def declaration? (line : Text) : Option Declaration :=
  match word? line with
  | none => none
  | some (name, rest) =>
    match after? [':'] (trimLeft rest) with
    | none => none
    | some rest =>
      let typed := trimLeft rest
      (word? typed).map fun (type, rest) => ⟨name, type, line.length - typed.length, rest⟩

end StructuredText
