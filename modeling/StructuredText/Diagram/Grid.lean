import StructuredText.Diagram

/- A grid that nodes fill row by row. -/
namespace StructuredText

inductive Extent
  | whole (n : Int)
  | real (x : LReal)

namespace Extent

def toReal : Extent → LReal
  | .whole n => LReal.ofInt n
  | .real x => x

def add : Extent → Extent → Extent
  | .whole m, .whole n => .whole (m + n)
  | x, y => .real (x.toReal + y.toReal)

def mul : Extent → Extent → Extent
  | .whole m, .whole n => .whole (m * n)
  | x, y => .real (x.toReal * y.toReal)

instance : Add Extent := ⟨add⟩
instance : Mul Extent := ⟨mul⟩

end Extent

structure Grid where
  perRow : Int
  xSpacing : Extent
  ySpacing : Extent
  startX : Extent
  startY : Extent

namespace Grid

def standard : Grid := ⟨3, .whole 250, .whole 150, .whole 100, .whole 100⟩

/-- Rows and columns are counted with a quotient rounded down, so that `perRow` may be negative. -/
def position (grid : Grid) (i : Nat) : Position :=
  ⟨(grid.startX + .whole (Int.fmod i grid.perRow) * grid.xSpacing).toReal,
    (grid.startY + .whole (Int.fdiv i grid.perRow) * grid.ySpacing).toReal⟩

def arrange {Place : Type} (grid : Grid) (nodes : List (Node Place)) : List (Node Position) :=
  nodes.mapIdx fun i n => ⟨n.id, grid.position i, n.symbol⟩

/-- No node can be placed in rows of none. -/
def arrange? {Place : Type} (grid : Grid) (nodes : List (Node Place)) :
    Option (List (Node Position)) :=
  if grid.perRow = 0 ∧ nodes ≠ [] then none else some (grid.arrange nodes)

theorem map_arrange {Place α : Type} (grid : Grid) (nodes : List (Node Place))
    (f : Text → Symbol → α) :
    (grid.arrange nodes).map (fun n => f n.id n.symbol) = nodes.map fun n => f n.id n.symbol := by
  apply List.ext_getElem <;> simp [arrange]

end Grid
end StructuredText
