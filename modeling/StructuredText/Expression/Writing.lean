import StructuredText.Expression
import StructuredText.Number.Decimal

/- The text of an expression.  Parentheses stand only where the tree could be misread: AND is
   the loosest operator, comparisons do not chain, and NOT would take all that follows it. -/
namespace StructuredText

def Literal.text : Literal → Text
  | .bool true => "TRUE".toList
  | .bool false => "FALSE".toList
  | .int value => integerText value
  | .real value => value.text
  | .string value => value

def Literal.isWritable : Literal → Bool
  | .int value => isWritableInteger value
  | _ => true

def Connective.tightness : Connective → Nat
  | .and => 1
  | .or => 2

def Comparison.tightness (_ : Comparison) : Nat := 3

def operandTightness : Nat := 10

def parenthesized (t : Text) : Text := '(' :: (t ++ [')'])

def Expression.isNegation : Expression → Bool
  | .negation _ => true
  | _ => false

/-- `left op right`, the left side in parentheses when it is a negation, the whole when the place
    asks for a tighter operator. -/
def binaryText (place tightness : Nat) (symbol : Text) (negatedLeft : Bool) (left right : Text) :
    Text :=
  let left := if negatedLeft then parenthesized left else left
  let whole := left ++ ' ' :: symbol ++ ' ' :: right
  if tightness < place then parenthesized whole else whole

mutual
def Expression.textAt : (place : Nat) → Expression → Text
  | _, .literal value => value.text
  | _, .variable name => name
  | _, .negation operand => "NOT ".toList ++ operand.textAt operandTightness
  | place, .connective op left right =>
    binaryText place op.tightness op.symbol left.isNegation
      (left.textAt op.tightness) (right.textAt (op.tightness + 1))
  | place, .comparison op left right =>
    binaryText place op.tightness op.symbol left.isNegation
      (left.textAt (op.tightness + 1)) (right.textAt (op.tightness + 1))
  | _, .call name arguments =>
    name ++ parenthesized (", ".toList.intercalate (Expression.texts arguments))

def Expression.texts : List Expression → List Text
  | [] => []
  | e :: rest => e.textAt 0 :: Expression.texts rest
end

def Expression.text (e : Expression) : Text := e.textAt 0

mutual
/-- No integer in the expression is past the limit of written numerals. -/
def Expression.isWritable : Expression → Bool
  | .literal value => value.isWritable
  | .variable _ => true
  | .negation operand => operand.isWritable
  | .connective _ left right => left.isWritable && right.isWritable
  | .comparison _ left right => left.isWritable && right.isWritable
  | .call _ arguments => Expression.areWritable arguments

def Expression.areWritable : List Expression → Bool
  | [] => true
  | e :: rest => e.isWritable && Expression.areWritable rest
end

def Expression.text? (e : Expression) : Option Text :=
  if e.isWritable then some e.text else none

theorem Expression.texts_eq_map (arguments : List Expression) :
    Expression.texts arguments = arguments.map (·.text) := by
  induction arguments with
  | nil => rfl
  | cons e rest ih => simp [Expression.texts, ih, Expression.text]

theorem Expression.areWritable_eq_all (arguments : List Expression) :
    Expression.areWritable arguments = arguments.all (·.isWritable) := by
  induction arguments with
  | nil => rfl
  | cons e rest ih => simp [Expression.areWritable, ih]

end StructuredText
