import StructuredText.Expression.Reading
import StructuredText.Statement
import StructuredText.Text.Fold

/- What a single line says, its expressions still being text. -/
namespace StructuredText

inductive Clause
  | assignment (target value : Text)
  | conditional (condition : Option Text)
  | call (name : Text) (arguments : List Text)

def isTargetChar (c : Char) : Bool := isWord c || c = '.' || c = '[' || c = ']'

def assignmentParts? (t : Text) : Option (Text × Text) :=
  let target := t.takeWhile isTargetChar
  match after? ":=".toList (trimLeft (t.dropWhile isTargetChar)) with
  | some (c :: value) => if target.isEmpty then none else some (target, trimLeft (c :: value))
  | _ => none

/-- The text without a `THEN` that ends it as a word of its own. -/
def withoutThen (t : Text) : Text :=
  match before? "THEN".toList t with
  | some start => if start.getLast?.all (! isWord ·) then trimRight start else t
  | none => t

/-- The condition of a line that begins with `IF`, read for itself. -/
def lineCondition? (t : Text) : Option Text :=
  let condition := withoutThen (trim (t.drop 2))
  if condition.isEmpty then none else some condition

def opensConditional (t : Text) : Bool := startsWithWord "IF".toList t

def Clause.ofLine? (line : Text) : Option Clause :=
  let t := trim (withoutFinal ';' line)
  match assignmentParts? t with
  | some (target, value) => some (.assignment target value)
  | none =>
    if opensConditional t then some (.conditional (lineCondition? t))
    else (callParts? t).map fun (name, arguments) => .call name arguments

/-- A call on a line of its own has used up one level before its arguments are read. -/
def callLevels : Nat := expressionLimit

def Clause.statement : Clause → Statement
  | .assignment target value => .assignment target (Expression.ofText value)
  | .conditional condition => .conditional (condition.map Expression.ofText) none none
  | .call name arguments => .call name name (arguments.map (Expression.read callLevels))

def Clause.cutOffs : Clause → List Nat
  | .assignment _ value => Expression.cutOffsOf value
  | .conditional condition => condition.elim [] Expression.cutOffsOf
  | .call _ arguments => arguments.flatMap (Expression.cutOffs callLevels)

def Statement.ofLine? (line : Text) : Option Statement :=
  (Clause.ofLine? line).map Clause.statement

end StructuredText
