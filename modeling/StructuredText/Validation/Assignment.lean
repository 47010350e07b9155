import StructuredText.Finding
import StructuredText.Source.Nesting
import StructuredText.Text.Fold
import StructuredText.Text.Search

/- An assignment has one `:=` outside parentheses, a plain target, and balanced parentheses. -/
namespace StructuredText

/-- The offset behind the first `word`, in any case, that begins at a word's start and has blanks
    behind it, and behind these blanks; the text comes after `previous`. -/
def behindWord? (word : Text) (previous : Option Char) : Text → Option Nat
  | [] => none
  | c :: t =>
    let rest := (c :: t).drop word.length
    if atWordStart previous && startsFolded word (c :: t) && rest.head?.any isBlank then
      some (word.length + leadingBlanks rest)
    else (behindWord? word (some c) t).map (· + 1)

def behindOpening? (opening closing t : Text) : Option Nat :=
  if startsFoldedWord opening t then
    (behindWord? closing opening.getLast? (t.drop opening.length)).map (opening.length + ·)
  else none

def behindElse? (t : Text) : Option Nat :=
  let rest := t.drop 4
  if startsFolded "ELSE".toList t && rest.head?.any isBlank then some (4 + leadingBlanks rest)
  else none

def inlineOpenings : List (Text × Text) := [
  ("IF".toList, "THEN".toList), ("ELSIF".toList, "THEN".toList), ("WHILE".toList, "DO".toList)]

def behindControl? (t : Text) : Option Nat :=
  match inlineOpenings.findSome? fun (opening, closing) => behindOpening? opening closing t with
  | some n => some n
  | none => behindElse? t

def isLabelChar (c : Char) : Bool :=
  isWord c || isBlank c || c = '#' || c = '.' || c = '-' || c = ','

def behindLabel? (t : Text) : Option Nat :=
  match t.dropWhile isLabelChar with
  | ':' :: rest =>
    if (t.takeWhile isLabelChar).isEmpty || rest.head? = some '=' then none
    else some (t.length - (trimLeft rest).length)
  | _ => none

def statementStart (inCase : Bool) (t : Text) : Nat :=
  match behindControl? t with
  | some n => n
  | none => if inCase then (behindLabel? t).getD 0 else 0

def isTarget (t : Text) : Bool :=
  !t.isEmpty && t.all fun c => isWord c || c = '[' || c = ']' || c = '.'

def checkAssignment (inCase : Bool) (line : Line) : List Finding :=
  let t := line.text
  let start := statementStart inCase t
  if startsFoldedWord "FOR".toList t then []
  else match findTopLevel? ":=".toList t start with
    | none => []
    | some n =>
      if (findTopLevel? ":=".toList t (n + 2)).isSome then [line.finding n .invalidAssignment]
      else
        (if isTarget (trim ((t.take n).drop start)) then []
          else [line.finding start .invalidTarget]) ++
        (if hasEqualParens (t.drop (n + 2)) then [] else [line.finding (n + 2) .unbalanced])

end StructuredText
