import StructuredText.Statement

/- Program organization units: a program, function or function block with its variables and
   statements. -/
namespace StructuredText

inductive PouKind
  | program
  | functionBlock
  | function
  deriving DecidableEq

def PouKind.keyword : PouKind → Text
  | .program => "PROGRAM".toList
  | .functionBlock => "FUNCTION_BLOCK".toList
  | .function => "FUNCTION".toList

def PouKind.terminator (kind : PouKind) : Text := "END_".toList ++ kind.keyword

def PouKind.all : List PouKind := [.program, .functionBlock, .function]

inductive VariableRole
  | input
  | output
  | internal
  | inout
  deriving DecidableEq

structure Variable where
  name : Text
  type : Text
  role : VariableRole
  initialValue : Option Text
  deriving DecidableEq

structure Pou where
  kind : PouKind
  name : Text
  returnType : Option Text
  declared : List Variable
  statements : List Statement

namespace Pou

def ofRole (pou : Pou) (role : VariableRole) : List Variable :=
  pou.declared.filter (·.role = role)

def inputs (pou : Pou) : List Variable := pou.ofRole .input

def outputs (pou : Pou) : List Variable := pou.ofRole .output

def variableNamed? (pou : Pou) (name : Text) : Option Variable :=
  pou.declared.find? (·.name = name)

def same (a b : Pou) : Bool :=
  a.kind = b.kind && a.name = b.name && a.returnType = b.returnType &&
    a.declared = b.declared && Statement.sameAll a.statements b.statements

theorem variableNamed?_isSome_iff (pou : Pou) (name : Text) :
    (pou.variableNamed? name).isSome ↔ ∃ v ∈ pou.declared, v.name = name := by
  simp [variableNamed?]

end Pou
end StructuredText
