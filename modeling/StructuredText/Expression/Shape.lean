import StructuredText.Expression
import StructuredText.Number.Decimal
import StructuredText.Source.Nesting
import StructuredText.Text.Blank
import StructuredText.Text.Search

/- The outermost construct of an expression's text, its parts still being text. -/
namespace StructuredText

def stripParensWithin : Nat → Text → Text
  | 0, t => t
  | pairs + 1, t =>
    if isEnclosed t then stripParensWithin pairs (trim (t.drop 1).dropLast) else t

def stripParens (t : Text) : Text := stripParensWithin t.length (trim t)

/-- What stands before and behind the first `word` outside parentheses that no word character
    touches, in a text that comes after `previous` and begins at `depth`. -/
def cutAtTopWord? (word : Text) (previous : Option Char) (depth : Int) :
    Text → Option (Text × Text)
  | [] => none
  | c :: t =>
    let further (depth : Int) :=
      (cutAtTopWord? word (some c) depth t).map fun (start, rest) => (c :: start, rest)
    if c = '(' then further (depth + 1)
    else if c = ')' then further (depth - 1)
    else if depth = 0 && atWordStart previous && startsWithWord word (c :: t) then
      some ([], (c :: t).drop word.length)
    else further depth

/-- The parts that at most `cuts` cuts make, the text coming after `previous`.  Nothing behind the
    last cut makes no part. -/
def topWordParts (word : Text) : Nat → Option Char → Text → List Text
  | _, _, [] => []
  | 0, _, t => [trim t]
  | cuts + 1, previous, t =>
    match cutAtTopWord? word previous 0 t with
    | none => [trim t]
    | some (start, rest) => trim start :: topWordParts word cuts word.getLast? rest

/-- The trimmed parts between the words outside parentheses, or the text itself if it has but
    one. -/
def splitAtTopWord (word t : Text) : List Text :=
  let parts := topWordParts word t.length none t
  if parts.length > 1 then parts else [t]

inductive Shape
  | leaf (expression : Expression)
  | negation (operand : Text)
  | chain (op : Connective) (first : Text) (rest : List Text)
  | comparison (op : Comparison) (left right : Text)
  | call (name : Text) (arguments : List Text)

structure Numeral where
  negative : Bool
  whole : Text
  fraction : Option Text

def unsignedNumeral? (negative : Bool) (t : Text) : Option Numeral :=
  let whole := t.takeWhile isDecimal
  if whole.isEmpty then none
  else match t.dropWhile isDecimal with
    | [] => some ⟨negative, whole, none⟩
    | c :: fraction =>
      if c = '.' && !fraction.isEmpty && fraction.all isDecimal then
        some ⟨negative, whole, some fraction⟩
      else none

def numeral? : Text → Option Numeral
  | [] => none
  | c :: t => if c = '-' then unsignedNumeral? true t else unsignedNumeral? false (c :: t)

/-- The number, unless it is an integer past the limit or beyond every finite LREAL. -/
def Numeral.literal? (n : Numeral) : Option Literal :=
  match n.fraction with
  | none => (natural? n.whole).map fun value => .int (if n.negative then -value else value)
  | some fraction =>
    match LReal.ofDecimal n.negative (digitsValue (n.whole ++ fraction)) (-fraction.length) with
    | .finite sign m e => some (.real (.finite sign m e))
    | _ => none

/-- `NOT` takes the whole rest of the text, behind blanks or from a parenthesis on. -/
def negated? (t : Text) : Option Text :=
  match after? "NOT".toList t with
  | none => none
  | some [] => none
  | some (c :: rest) =>
    if c = '(' then some (c :: rest)
    else match afterBlanks? (c :: rest) with
      | some (c :: operand) => some (c :: operand)
      | _ => none

def chain? (op : Connective) (t : Text) : Option Shape :=
  match splitAtTopWord op.symbol t with
  | first :: second :: rest => some (.chain op first (second :: rest))
  | _ => none

/-- A comparison needs something at its left. -/
def comparison? (op : Comparison) (t : Text) : Option Shape :=
  match findTopLevel? op.symbol t 0 with
  | some (n + 1) =>
    some (.comparison op (t.take (n + 1)) (t.drop (n + 1 + op.symbol.length)))
  | _ => none

/-- A named argument counts as its value alone. -/
def argumentValue (t : Text) : Text :=
  match word? t with
  | none => t
  | some (_, rest) =>
    match after? ":=".toList (trimLeft rest) with
    | some (c :: value) => trimLeft (c :: value)
    | _ => t

/-- Every comma parts the arguments, also one inside a nested call. -/
def argumentTexts (t : Text) : List Text :=
  if (trim t).isEmpty then [] else (t.splitOn ',').map fun part => argumentValue (trim part)

/-- The name and the argument texts of `name(arguments)`, if the parenthesis closes at the end. -/
def callParts? (t : Text) : Option (Text × List Text) :=
  match word? t with
  | none => none
  | some (name, rest) =>
    let inner := trimLeft rest
    if isEnclosed inner then some (name, argumentTexts (inner.drop 1).dropLast) else none

/-- The forms are tried in this order; a text that fits none is a name. -/
def Shape.ofStripped (t : Text) : Shape :=
  if t = "TRUE".toList then .leaf (.literal (.bool true))
  else if t = "FALSE".toList then .leaf (.literal (.bool false))
  else match numeral? t with
    | some n => .leaf (n.literal?.elim (.variable t) .literal)
    | none => match negated? t with
      | some operand => .negation operand
      | none => match Connective.all.findSome? (chain? · t) with
        | some shape => shape
        | none => match Comparison.all.findSome? (comparison? · t) with
          | some shape => shape
          | none => match callParts? t with
            | some (name, arguments) => .call name arguments
            | none => .leaf (.variable t)

def Shape.ofText (t : Text) : Shape := Shape.ofStripped (stripParens t)

end StructuredText
