import StructuredText.Document
import StructuredText.Pou

/- Units as documents. -/
namespace StructuredText

namespace Literal

def ofDocument? : Document → Option Literal
  | .bool value => some (.bool value)
  | .int value => some (.int value)
  | .real value => some (.real value)
  | .text value => some (.string value)
  | _ => none

def document : Literal → Document
  | .bool value => .bool value
  | .int value => .int value
  | .real value => .real value
  | .string value => .text value

theorem ofDocument?_document (literal : Literal) :
    ofDocument? literal.document = some literal := by
  cases literal <;> rfl

end Literal

namespace Expression

def withConnective (symbol : Text) (left right : Expression) : Option Expression :=
  (Connective.all.find? (·.symbol = symbol)).map (.connective · left right)

def withComparison (symbol : Text) (left right : Expression) : Option Expression :=
  (Comparison.all.find? (·.symbol = symbol)).map (.comparison · left right)

def readBinary (read : Document → Option Expression) (d : Document) : Option Expression := do
  let symbol ← d.required? "operator" Document.text?
  let left ← d.required? "left" read
  let right ← d.required? "right" read
  match withConnective symbol left right with
  | some e => some e
  | none => withComparison symbol left right

def readUnary (read : Document → Option Expression) (d : Document) : Option Expression := do
  let symbol ← d.required? "operator" Document.text?
  let operand ← d.required? "operand" read
  if symbol = "NOT".toList then some (.negation operand) else none

def readCallParts (read : Document → Option Expression) (d : Document) :
    Option (Text × List Expression) := do
  let name ← d.required? "name" Document.text?
  let arguments ← d.optional? "arguments" [] (Document.list? read)
  some (name, arguments)

/-- Reads a document in which at most `levels` documents lie inside one another. -/
def readDocument : (levels : Nat) → Document → Option Expression
  | 0, _ => none
  | levels + 1, d => do
    let kind ← d.required? "kind" Document.text?
    if kind = "literal".toList then (d.required? "value" Literal.ofDocument?).map .literal
    else if kind = "variable".toList then (d.required? "name" Document.text?).map .variable
    else if kind = "binary".toList then readBinary (readDocument levels) d
    else if kind = "unary".toList then readUnary (readDocument levels) d
    else if kind = "call".toList then
      (readCallParts (readDocument levels) d).map fun (name, arguments) => .call name arguments
    else none

def ofDocument? (d : Document) : Option Expression := readDocument d.depth d

def binaryDocument (symbol : Text) (left right : Document) : Document := .ofFields [
  ("kind", .ofString "binary"), ("operator", .text symbol), ("left", left), ("right", right)]

def callDocument (name : Text) (arguments : List Document) : Document := .ofFields [
  ("kind", .ofString "call"), ("name", .text name), ("arguments", .list arguments)]

mutual
def document : Expression → Document
  | .literal value => .ofFields [("kind", .ofString "literal"), ("value", value.document)]
  | .variable name => .ofFields [("kind", .ofString "variable"), ("name", .text name)]
  | .negation operand => .ofFields [
      ("kind", .ofString "unary"), ("operator", .ofString "NOT"), ("operand", operand.document)]
  | .connective op left right => binaryDocument op.symbol left.document right.document
  | .comparison op left right => binaryDocument op.symbol left.document right.document
  | .call name arguments => callDocument name (documents arguments)

def documents : List Expression → List Document
  | [] => []
  | e :: rest => e.document :: documents rest
end

/-- The call of a call statement need not say that it is one. -/
def readCall? (d : Document) : Option (Text × List Expression) :=
  if (d.field? "kind").all (Document.isString "call") then readCallParts ofDocument? d else none

end Expression

namespace Statement

def readDocument : (levels : Nat) → Document → Option Statement
  | 0, _ => none
  | levels + 1, d => do
    let kind ← d.required? "kind" Document.text?
    let branch := Document.list? (readDocument levels)
    let expression := Document.nullable? Expression.ofDocument?
    if kind = "assignment".toList then
      let target ← d.required? "target" Document.text?
      let value ← d.required? "expression" Expression.ofDocument?
      some (.assignment target value)
    else if kind = "if".toList then
      let condition ← d.optional? "condition" none expression
      let thenBranch ← d.optional? "then_branch" none (Document.nullable? branch)
      let elseBranch ← d.optional? "else_branch" none (Document.nullable? branch)
      some (.conditional condition thenBranch elseBranch)
    else if kind = "call".toList then
      let target ← d.required? "target" Document.text?
      let (name, arguments) ← d.required? "expression" Expression.readCall?
      some (.call target name arguments)
    else if kind = "for".toList then
      (d.optional? "body" [] branch).map .forLoop
    else if kind = "while".toList then
      let condition ← d.optional? "condition" none expression
      let body ← d.optional? "body" [] branch
      some (.whileLoop condition body)
    else if kind = "return".toList then
      (d.optional? "expression" none expression).map .ret
    else none

def ofDocument? (d : Document) : Option Statement := readDocument d.depth d

mutual
def document : Statement → Document
  | .assignment target value => .ofFields [
      ("kind", .ofString "assignment"), ("target", .text target), ("expression", value.document)]
  | .conditional condition thenBranch elseBranch => .ofFields [
      ("kind", .ofString "if"), ("condition", .ofNullable Expression.document condition),
      ("then_branch", branchDocument thenBranch), ("else_branch", branchDocument elseBranch)]
  | .call target name arguments => .ofFields [
      ("kind", .ofString "call"), ("target", .text target),
      ("expression", Expression.callDocument name (Expression.documents arguments))]
  | .forLoop body => .ofFields [("kind", .ofString "for"), ("body", .list (documents body))]
  | .whileLoop condition body => .ofFields [
      ("kind", .ofString "while"), ("condition", .ofNullable Expression.document condition),
      ("body", .list (documents body))]
  | .ret value => .ofFields [
      ("kind", .ofString "return"), ("expression", .ofNullable Expression.document value)]

def documents : List Statement → List Document
  | [] => []
  | s :: rest => s.document :: documents rest

def branchDocument : Option (List Statement) → Document
  | none => .null
  | some branch => .list (documents branch)
end

end Statement

namespace VariableRole

def all : List VariableRole := [.input, .output, .internal, .inout]

def name : VariableRole → String
  | .input => "input"
  | .output => "output"
  | .internal => "local"
  | .inout => "inout"

def ofDocument? (d : Document) : Option VariableRole := all.find? fun role => d.isString role.name

end VariableRole

namespace Variable

def ofDocument? (d : Document) : Option Variable := do
  let name ← d.required? "name" Document.text?
  let type ← d.required? "type" Document.text?
  let role ← d.optional? "kind" .internal VariableRole.ofDocument?
  let initialValue ← d.optional? "initial_value" none (Document.nullable? Document.text?)
  some ⟨name, type, role, initialValue⟩

def document (v : Variable) : Document := .ofFields [
  ("name", .text v.name), ("type", .text v.type), ("kind", .ofString v.role.name),
  ("initial_value", .ofNullable .text v.initialValue)]

end Variable

namespace PouKind

def name : PouKind → String
  | .program => "program"
  | .functionBlock => "function_block"
  | .function => "function"

def ofDocument? (d : Document) : Option PouKind := all.find? fun kind => d.isString kind.name

end PouKind

namespace Pou

def ofDocument? (d : Document) : Option Pou := do
  let kind ← d.required? "type" PouKind.ofDocument?
  let name ← d.optional? "name" [] Document.text?
  let returnType ← d.optional? "return_type" none (Document.nullable? Document.text?)
  let declared ← d.optional? "variables" [] (Document.list? Variable.ofDocument?)
  let statements ← d.optional? "statements" [] (Document.list? Statement.ofDocument?)
  some ⟨kind, name, returnType, declared, statements⟩

def document (pou : Pou) : Document := .ofFields [
  ("type", .ofString pou.kind.name), ("name", .text pou.name),
  ("return_type", .ofNullable .text pou.returnType),
  ("variables", .list (pou.declared.map Variable.document)),
  ("statements", .list (pou.statements.map Statement.document))]

end Pou
end StructuredText
