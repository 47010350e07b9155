import StructuredText.Diagram.Draft
import StructuredText.Number.LReal

/- A ladder of plain rungs: a contact wired to a coil. -/
namespace StructuredText

def addRungs (d : Draft Position) (rungs : Nat) : List (Text × Text) → Draft Position
  | [] => d
  | (contact, coil) :: rest =>
    let y := LReal.ofInt (100 + 100 * rungs)
    let first := d.nodes.length
    let d := d.add ⟨100, y⟩ (.contact contact false (some false))
    let d := d.add ⟨400, y⟩ (.coil coil false (some true))
    addRungs (d.connect first (first + 1)) (rungs + 1) rest

def ladder (rungs : List (Text × Text)) : Diagram Position := (addRungs Draft.empty 0 rungs).diagram

/-- Tags two by two; one that is left over at the end is not used. -/
def pairs {α : Type} : List α → List (α × α)
  | a :: b :: rest => (a, b) :: pairs rest
  | _ => []

theorem length_pairs {α : Type} : (tags : List α) → (pairs tags).length = tags.length / 2
  | [] => by simp [pairs]
  | [_] => by simp [pairs]
  | _ :: _ :: rest => by
    simp only [pairs, List.length_cons, length_pairs rest]
    omega

end StructuredText
