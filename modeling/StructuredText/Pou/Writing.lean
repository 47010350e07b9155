import StructuredText.Expression.Writing
import StructuredText.Pou
import StructuredText.Text.Blank

/- The text of a unit, line by line.  A line has a depth of indentation, and no text when it holds
   an integer past the limit of written numerals. -/
namespace StructuredText

structure Written where
  depth : Nat
  text : Option Text

def Written.around (depth : Nat) (before : Text) (e : Expression) (after : Text) : Written :=
  ⟨depth, e.text?.map fun t => before ++ t ++ after⟩

def Written.fixed (depth : Nat) (text : Text) : Written := ⟨depth, some text⟩

mutual
def Statement.lines (depth : Nat) : Statement → List Written
  | .assignment target value => [.around depth (target ++ " := ".toList) value [';']]
  | .conditional condition thenBranch elseBranch =>
    .around depth "IF ".toList (condition.getD (.literal (.bool true))) " THEN".toList ::
      Statement.branchLines (depth + 1) thenBranch ++
      Statement.elseLines depth elseBranch ++ [.fixed depth "END_IF;".toList]
  | .call _ name arguments => [.around depth [] (.call name arguments) [';']]
  | .forLoop body =>
    .fixed depth "FOR".toList :: Statement.allLines (depth + 1) body ++
      [.fixed depth "END_FOR;".toList]
  | .whileLoop condition body =>
    .around depth "WHILE ".toList (condition.getD (.literal (.bool true))) " DO".toList ::
      Statement.allLines (depth + 1) body ++ [.fixed depth "END_WHILE;".toList]
  | .ret none => [.fixed depth "RETURN;".toList]
  | .ret (some value) => [.around depth "RETURN ".toList value [';']]

def Statement.allLines (depth : Nat) : List Statement → List Written
  | [] => []
  | s :: rest => s.lines depth ++ Statement.allLines depth rest

def Statement.branchLines (depth : Nat) : Option (List Statement) → List Written
  | none => []
  | some branch => Statement.allLines depth branch

/-- An empty else branch is not written. -/
def Statement.elseLines (depth : Nat) : Option (List Statement) → List Written
  | none => []
  | some [] => []
  | some (s :: rest) =>
    .fixed depth "ELSE".toList ::
      (s.lines (depth + 1) ++ Statement.allLines (depth + 1) rest)
end

def Variable.line (v : Variable) : Written :=
  .fixed 1 (v.name ++ " : ".toList ++ v.type ++
    v.initialValue.elim [] (" := ".toList ++ ·) ++ [';'])

/-- The sections in the order of writing. -/
def sections : List (VariableRole × Text) := [
  (.input, "VAR_INPUT".toList), (.output, "VAR_OUTPUT".toList), (.inout, "VAR_IN_OUT".toList),
  (.internal, "VAR".toList)]

def sectionLines (keyword : Text) (declared : List Variable) : List Written :=
  if declared.isEmpty then []
  else .fixed 0 keyword :: declared.map Variable.line ++ [.fixed 0 "END_VAR".toList]

/-- A result type is written unless it is absent or empty. -/
def Pou.header (pou : Pou) : Text :=
  trimRight (pou.kind.keyword ++ ' ' :: pou.name) ++
    match pou.returnType with
    | none | some [] => []
    | some type => " : ".toList ++ type

def Pou.lines (pou : Pou) : List Written :=
  .fixed 0 pou.header ::
    sections.flatMap (fun (role, keyword) => sectionLines keyword (pou.ofRole role)) ++
    Statement.allLines 0 pou.statements ++ [.fixed 0 pou.kind.terminator]

def indentation (depth : Nat) : Text := List.replicate (4 * depth) ' '

def writtenText (indent : Nat) : List Written → Text
  | [] | ⟨_, none⟩ :: _ => []
  | ⟨depth, some text⟩ :: rest =>
    indentation (indent + depth) ++ text ++ '\n' :: writtenText indent rest

def stoppedAt? : List Written → Option Nat
  | [] => none
  | ⟨depth, none⟩ :: _ => some depth
  | ⟨_, some _⟩ :: rest => stoppedAt? rest

structure Writer where
  buffer : Text
  indent : Nat

namespace Writer

def empty : Writer := ⟨[], 0⟩

/-- Adds a unit.  Writing that stops at a line leaves the indentation of that line behind. -/
def write (w : Writer) (pou : Pou) : Writer :=
  ⟨w.buffer ++ writtenText w.indent pou.lines, w.indent + (stoppedAt? pou.lines).getD 0⟩

/-- The text so far, with one newline at its end. -/
def text (w : Writer) : Text := withoutTrailing '\n' w.buffer ++ ['\n']

end Writer

def Pou.isWritable (pou : Pou) : Bool := (stoppedAt? pou.lines).isNone

def Pou.text (pou : Pou) : Text := (Writer.empty.write pou).text

def Pou.text? (pou : Pou) : Option Text := if pou.isWritable then some pou.text else none

theorem Writer.indent_write {w : Writer} {pou : Pou} (writable : pou.isWritable) :
    (w.write pou).indent = w.indent := by
  have : stoppedAt? pou.lines = none := by simpa [Pou.isWritable] using writable
  simp [Writer.write, this]

end StructuredText
