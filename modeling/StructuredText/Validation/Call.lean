import StructuredText.Finding
import StructuredText.Source.Nesting
import StructuredText.Text.Search
import StructuredText.Vocabulary

/- A call has balanced parentheses and names its parameters. -/
namespace StructuredText

/-- The word before a parenthesis that begins a call, and the offset of that parenthesis. -/
def callHead? (t : Text) : Option (Text × Nat) :=
  match word? t with
  | none => none
  | some (name, rest) =>
    let rest := trimLeft rest
    if rest.head? = some '(' then some (name, t.length - rest.length) else none

def isNamedParameter (t : Text) : Bool :=
  let rest := trimLeft (t.dropWhile isWord)
  !(t.takeWhile isWord).isEmpty && 2 < rest.length &&
    (":=".toList.isPrefixOf rest || "=>".toList.isPrefixOf rest)

def checkParameters (line : Line) (start : Nat) (parameters : Text) : List Finding :=
  ((splitTopLevel [','] parameters).zipIdx 1).filterMap fun ((offset, parameter), number) =>
    if (trim parameter).isEmpty || isNamedParameter (trim parameter) then none
    else some (line.finding (start + offset + leadingBlanks parameter) (.positional number))

def checkCall (line : Line) : List Finding :=
  let t := line.text
  match callHead? t with
  | none => []
  | some (name, opening) =>
    if isReserved name then []
    else
      (if hasEqualParens t then [] else [line.finding opening .unbalancedCall]) ++
      match matchingParen? t opening with
      | none => []
      | some closing =>
        let parameters := (t.take closing).drop (opening + 1)
        if (trim parameters).isEmpty then [] else checkParameters line (opening + 1) parameters

end StructuredText
