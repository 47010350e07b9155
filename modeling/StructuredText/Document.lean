import StructuredText.Number.LReal
import StructuredText.Text.Basic

/- Documents: trees of named fields in which units and diagrams are exchanged.  A reader has a
   result only where the document fits; fields it does not ask for are ignored. -/
namespace StructuredText

inductive Document
  | null
  | bool (value : Bool)
  | int (value : Int)
  | real (value : LReal)
  | text (value : Text)
  | list (items : List Document)
  | object (fields : List (Text × Document))
  deriving Inhabited

namespace Document

mutual
def depth : Document → Nat
  | .list items => listDepth items + 1
  | .object fields => fieldsDepth fields + 1
  | _ => 1

def listDepth : List Document → Nat
  | [] => 0
  | d :: rest => max d.depth (listDepth rest)

def fieldsDepth : List (Text × Document) → Nat
  | [] => 0
  | (_, d) :: rest => max d.depth (fieldsDepth rest)
end

def field? (d : Document) (name : String) : Option Document :=
  match d with
  | .object fields => fields.lookup name.toList
  | _ => none

def isObject : Document → Bool
  | .object _ => true
  | _ => false

def bool? : Document → Option Bool
  | .bool value => some value
  | _ => none

def int? : Document → Option Int
  | .int value => some value
  | _ => none

def real? : Document → Option LReal
  | .real value => some value
  | .int value => some (LReal.ofInt value)
  | _ => none

def text? : Document → Option Text
  | .text value => some value
  | _ => none

def list? {α : Type} (read : Document → Option α) : Document → Option (List α)
  | .list items => items.mapM read
  | _ => none

def nullable? {α : Type} (read : Document → Option α) : Document → Option (Option α)
  | .null => some none
  | d => (read d).map some

def required? {α : Type} (d : Document) (name : String) (read : Document → Option α) : Option α :=
  (d.field? name).bind read

def optional? {α : Type} (d : Document) (name : String) (default : α)
    (read : Document → Option α) : Option α :=
  match d.field? name with
  | none => some default
  | some value => read value

def ofNullable {α : Type} (write : α → Document) : Option α → Document
  | none => .null
  | some value => write value

def ofTexts (texts : List Text) : Document := .list (texts.map .text)

def ofFields (fields : List (String × Document)) : Document :=
  .object (fields.map fun (name, value) => (name.toList, value))

def ofString (s : String) : Document := .text s.toList

def isString (s : String) : Document → Bool
  | .text value => value = s.toList
  | _ => false

theorem nullable?_ofNullable {α : Type} {read : Document → Option α} {write : α → Document}
    (reads : ∀ a, read (write a) = some a) (solid : ∀ a, write a ≠ .null) (a : Option α) :
    nullable? read (ofNullable write a) = some a := by
  cases a with
  | none => rfl
  | some a =>
    have := solid a
    have := reads a
    simp only [ofNullable]
    cases written : write a <;> simp_all [nullable?]

theorem list?_ofTexts (texts : List Text) : list? text? (ofTexts texts) = some texts := by
  simp only [list?, ofTexts]
  induction texts with
  | nil => rfl
  | cons t rest ih => simp_all [text?]

end Document
end StructuredText
