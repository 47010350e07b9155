import StructuredText.Index
import StructuredText.Text.Basic

/- A place in a list of lines from which one can read on and to which one can go back.  A place
   before the first line stands for the line that is as far from the end. -/
namespace StructuredText

structure Cursor where
  lines : List Text
  position : Int

def Cursor.atEnd (cursor : Cursor) : Bool := cursor.lines.length ≤ cursor.position

def Cursor.line? (cursor : Cursor) : Option Text :=
  (index? cursor.lines.length cursor.position).map (cursor.lines[·])

def Cursor.advance? (cursor : Cursor) : Option (Text × Cursor) :=
  cursor.line?.map fun line => (line, { cursor with position := cursor.position + 1 })

def Cursor.reset (cursor : Cursor) (position : Int) : Cursor := { cursor with position }

theorem Cursor.advance?_eq_none_iff (cursor : Cursor) :
    cursor.advance? = none ↔ cursor.atEnd ∨ cursor.position < -(cursor.lines.length : Int) := by
  simp [Cursor.advance?, Cursor.line?, Cursor.atEnd, index?_eq_none_iff]

theorem Cursor.reset_advance? {cursor next : Cursor} {line : Text}
    (read : cursor.advance? = some (line, next)) : next.reset cursor.position = cursor := by
  obtain ⟨_, _, eq⟩ := Option.map_eq_some_iff.mp read
  simp only [Prod.mk.injEq] at eq
  rw [← eq.2]
  rfl

end StructuredText
