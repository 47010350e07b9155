import StructuredText.Expression.Shape
import StructuredText.Limit

/- Reading expressions.  Every text has a reading; what lies too deep stays text. -/
namespace StructuredText
namespace Expression

def read : (levels : Nat) → Text → Expression
  | 0, t => .variable (trim t)
  | levels + 1, t =>
    match Shape.ofText t with
    | .leaf expression => expression
    | .negation operand => .negation (read levels operand)
    | .chain op first rest =>
      rest.foldl (fun left part => .connective op left (read levels part)) (read levels first)
    | .comparison op left right => .comparison op (read levels left) (read levels right)
    | .call name arguments => .call name (arguments.map (read levels))

def cutOffs : (levels : Nat) → Text → List Nat
  | 0, t => [t.length]
  | levels + 1, t =>
    match Shape.ofText t with
    | .leaf _ => []
    | .negation operand => cutOffs levels operand
    | .chain _ first rest => (first :: rest).flatMap (cutOffs levels)
    | .comparison _ left right => cutOffs levels left ++ cutOffs levels right
    | .call _ arguments => arguments.flatMap (cutOffs levels)

def ofText (t : Text) : Expression := read (expressionLimit + 1) t

def cutOffsOf (t : Text) : List Nat := cutOffs (expressionLimit + 1) t

end Expression
end StructuredText
