import StructuredText.Limit
import StructuredText.Number.Integer
import StructuredText.Pou

/- What the library has to say about its own work. -/
namespace StructuredText

inductive Remark
  | noUnit
  | cutOff (length : Nat)
  | conditionalsTooDeep (kind : PouKind) (name : Text)
  | readUnit (kind : PouKind) (name : Text) (declarations statements : Nat)
  | validated (length findings : Nat)
  | fellBack
  | statementNotDrawn
  | expressionNotDrawn
  | drawn (name : Text) (nodes edges : Nat)
  | drawnFromPatterns (nodes edges : Nat)
  deriving DecidableEq

/-- Something was left out or simplified; every other remark is for the curious. -/
def Remark.isWarning : Remark → Bool
  | .cutOff _ | .conditionalsTooDeep .. | .statementNotDrawn | .expressionNotDrawn => true
  | _ => false

def Remark.message : Remark → Text
  | .noUnit => "No PROGRAM, FUNCTION or FUNCTION_BLOCK header found".toList
  | .cutOff length =>
    "Expression nested deeper than ".toList ++ naturalText expressionLimit ++
      " levels, keeping the rest as plain text (".toList ++ naturalText length ++ " chars)".toList
  | .conditionalsTooDeep kind name =>
    kind.keyword ++ ' ' :: name ++ ": IF blocks nested deeper than ".toList ++
      naturalText blockLimit ++ " levels were read as single-line IFs".toList
  | .readUnit kind name declarations statements =>
    "Parsed ".toList ++ kind.keyword ++ ' ' :: name ++ ": ".toList ++ naturalText declarations ++
      " variables, ".toList ++ naturalText statements ++ " statements".toList
  | .validated length findings =>
    "Validated ".toList ++ naturalText length ++ " chars: ".toList ++ naturalText findings ++
      " diagnostics".toList
  | .fellBack => "Source did not parse, falling back to text patterns".toList
  | .statementNotDrawn =>
    "Statement nested deeper than ".toList ++ naturalText drawingLimit ++
      " levels, not drawn".toList
  | .expressionNotDrawn =>
    "Expression nested deeper than ".toList ++ naturalText drawingLimit ++
      " levels, not drawn".toList
  | .drawn name nodes edges =>
    "Synthesized ".toList ++ name ++ ": ".toList ++ naturalText nodes ++ " nodes, ".toList ++
      naturalText edges ++ " edges".toList
  | .drawnFromPatterns nodes edges =>
    "Pattern diagram: ".toList ++ naturalText nodes ++ " nodes, ".toList ++
      naturalText edges ++ " edges".toList

end StructuredText
