import StructuredText.Diagram
import StructuredText.Duration
import StructuredText.Text.Search

/- Recognising lines of interest by their look: a timer, an AND/OR assignment, a call of a function
   block. -/
namespace StructuredText

/-- What a recogniser finds at the first place, from the left, where it finds anything. -/
def search? {α : Type} (recognise : Text → Option α) : Text → Option α
  | [] => none
  | c :: t =>
    match recognise (c :: t) with
    | some found => some found
    | none => search? recognise t

def afterToken? (token : String) (t : Text) : Option Text := after? token.toList (trimLeft t)

structure TimerCall where
  name : Text
  digits : Text
  unit : Text

/-- `name(IN := v, PT := T#5s`, with a single duration part in small letters. -/
def timerCall? (t : Text) : Option TimerCall := do
  let (name, t) ← word? t
  let t ← afterToken? "(" t
  let t ← afterToken? "IN" t
  let t ← afterToken? ":=" t
  let (_, t) ← word? (trimLeft t)
  let t ← after? [','] t
  let t ← afterToken? "PT" t
  let t ← afterToken? ":=" t
  let t ← afterToken? "T#" t
  let digits := t.takeWhile isDecimal
  if digits.isEmpty then none
  else
    let unit ← ["ms", "s", "m", "h"].find? fun u => u.toList.isPrefixOf (t.dropWhile isDecimal)
    some ⟨name, digits, unit.toList⟩

/-- The preset of a timer call; one with too many digits counts as none. -/
def TimerCall.preset (call : TimerCall) : Nat :=
  (duration? ("T#".toList ++ call.digits ++ call.unit)).getD 0

def assignmentAt? (t : Text) : Option (Text × Text) := do
  let (target, t) ← word? t
  let value ← afterToken? ":=" t
  if value.isEmpty then none else some (target, trimLeft value)

def afterConnective? (t : Text) : Option Text := do
  let t ← afterBlanks? t
  match after? "AND".toList t with
  | some rest => afterBlanks? rest
  | none => match after? "OR".toList t with
    | some rest => afterBlanks? rest
    | none => none

def cutAtConnective? : Text → Option (Text × Text)
  | [] => none
  | c :: t =>
    match afterConnective? (c :: t) with
    | some rest => some ([], rest)
    | none => (cutAtConnective? t).map fun (start, rest) => (c :: start, rest)

def operandsWithin : (cuts : Nat) → Text → List Text
  | 0, t => [t]
  | cuts + 1, t =>
    match cutAtConnective? t with
    | none => [t]
    | some (start, rest) => start :: operandsWithin cuts rest

def rungOperands? (expression : Text) : Option (List Text) :=
  if (cutAtConnective? expression).isSome then
    some (((operandsWithin expression.length expression).map trim).filter (!·.isEmpty))
  else none

/-- The first word `NOT` of an operand closes its contact and is no part of its label. -/
def operandSymbol (operand : Text) : Symbol :=
  match cutAtWord? "NOT".toList none operand with
  | none => .contact (trim operand) false (some false)
  | some (start, rest) => .contact (trim (start ++ rest)) false (some true)

structure BlockCall where
  name : Text
  parameters : Text

def beforeLastParen? (t : Text) : Option Text :=
  match t.reverse.dropWhile (· != ')') with
  | [] => none
  | _ :: start => some start.reverse

def blockCall? (t : Text) : Option BlockCall := do
  let (name, t) ← word? t
  let t ← afterToken? "(" t
  let parameters ← beforeLastParen? t
  if parameters.isEmpty then none else some ⟨name, parameters⟩

def namedInput? (parameter : Text) : Option Text :=
  match findText? ":=".toList parameter with
  | none => none
  | some n =>
    let name := trim (parameter.take n)
    let value := trim (parameter.drop (n + 2))
    if name.isEmpty || value.isEmpty then none else some (name ++ ':' :: value)

def BlockCall.symbol (call : BlockCall) : Symbol :=
  .functionBlock call.name (((call.parameters.splitOn ',').filterMap namedInput?).take 3)
    ["Q".toList, "Error".toList] (some "rockwell".toList)

end StructuredText
