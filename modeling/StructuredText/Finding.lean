import StructuredText.Number.Integer
import StructuredText.Pou
import StructuredText.Source.Line

/- What the checks of a source can find, and where. -/
namespace StructuredText

inductive Construct
  | unit (kind : PouKind)
  | declarations
  | ifBlock
  | caseBlock
  | forLoop
  | whileLoop
  | repeatLoop
  deriving DecidableEq

def Construct.keyword : Construct → Text
  | .unit kind => kind.keyword
  | .declarations => "VAR".toList
  | .ifBlock => "IF".toList
  | .caseBlock => "CASE".toList
  | .forLoop => "FOR".toList
  | .whileLoop => "WHILE".toList
  | .repeatLoop => "REPEAT".toList

def Construct.terminator (c : Construct) : Text := "END_".toList ++ c.keyword

def Construct.controls : List Construct :=
  [.ifBlock, .caseBlock, .forLoop, .whileLoop, .repeatLoop]

def Construct.all : List Construct :=
  PouKind.all.map .unit ++ .declarations :: Construct.controls

theorem Construct.mem_all (c : Construct) : c ∈ Construct.all := by
  cases c with
  | unit kind => cases kind <;> decide
  | _ => decide

inductive Problem
  | unexpectedEnd (found : Construct)
  | wrongEnd (expected found : Construct)
  | unclosed (construct : Construct)
  | missingSemicolon
  | digitFirst
  | unknownType (name : Text)
  | invalidAssignment
  | invalidTarget
  | unbalanced
  | unbalancedCall
  | positional (number : Nat)
  deriving DecidableEq

inductive Severity
  | error
  | warning
  | info
  deriving DecidableEq

namespace Problem

def severity : Problem → Severity
  | .missingSemicolon | .unknownType _ => .warning
  | .positional _ => .info
  | _ => .error

def message : Problem → Text
  | .unexpectedEnd found => "Unexpected ".toList ++ found.terminator
  | .wrongEnd expected found =>
    "Expected ".toList ++ expected.terminator ++ " but found ".toList ++ found.terminator
  | .unclosed construct => "Unclosed ".toList ++ construct.keyword ++ " block".toList
  | .missingSemicolon => "Missing semicolon".toList
  | .digitFirst => "Variable name cannot start with a number".toList
  | .unknownType name => "Unknown type: ".toList ++ name
  | .invalidAssignment => "Invalid assignment syntax".toList
  | .invalidTarget => "Invalid left-hand side of assignment".toList
  | .unbalanced => "Unbalanced parentheses".toList
  | .unbalancedCall => "Unbalanced parentheses in function call".toList
  | .positional number =>
    "Parameter ".toList ++ naturalText number ++
      " should use named parameter syntax (name := value)".toList

end Problem

/-- Column 0 stands for the line as a whole. -/
structure Finding where
  line : Nat
  column : Nat
  problem : Problem
  deriving DecidableEq

def Line.finding (line : Line) (offset : Nat) (problem : Problem) : Finding :=
  ⟨line.number, line.column offset, problem⟩

end StructuredText
