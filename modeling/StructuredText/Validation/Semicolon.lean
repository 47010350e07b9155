import StructuredText.Text.Search
import StructuredText.Validation.Call

/- Assignments, calls and jumps end in a semicolon. -/
namespace StructuredText

def exemptWords : List Text := [
  "PROGRAM", "FUNCTION_BLOCK", "FUNCTION", "IF", "CASE", "FOR", "WHILE", "REPEAT",
  "THEN", "ELSE", "ELSIF", "DO", "TO", "BY", "OF", "UNTIL"].map String.toList

def isExempt (t : Text) : Bool :=
  startsFolded "VAR".toList t || startsFolded "END_".toList t ||
    exemptWords.any (startsFoldedWord · t)

def isJump (t : Text) : Bool :=
  ["RETURN", "EXIT", "CONTINUE"].any fun word => startsFoldedWord word.toList t

def needsSemicolon (t : Text) : Bool :=
  !isExempt t && (containsText ":=".toList t || (callHead? t).isSome || isJump t)

def checkSemicolon (line : Line) : List Finding :=
  if needsSemicolon line.text && line.text.getLast? ≠ some ';' then
    [line.finding line.text.length .missingSemicolon]
  else []

end StructuredText
