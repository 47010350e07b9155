import StructuredText.Diagram
import StructuredText.Number.Integer

/- A diagram under construction.  Nodes and edges are numbered in the order in which numbers are
   asked for, whether or not something comes of it. -/
namespace StructuredText

structure Draft (Place : Type) where
  nodes : List (Node Place)
  edges : List Edge
  nodesNumbered : Nat
  edgesNumbered : Nat

def nodeId (n : Nat) : Text := "node-".toList ++ naturalText n

def edgeId (n : Nat) : Text := "edge-".toList ++ naturalText n

namespace Draft
variable {Place : Type}

def empty : Draft Place := ⟨[], [], 0, 0⟩

def diagram (d : Draft Place) : Diagram Place := ⟨d.nodes, d.edges⟩

def numberNode (d : Draft Place) : Draft Place := { d with nodesNumbered := d.nodesNumbered + 1 }

def numberEdge (d : Draft Place) : Draft Place := { d with edgesNumbered := d.edgesNumbered + 1 }

def add (d : Draft Place) (place : Place) (symbol : Symbol) : Draft Place :=
  { d.numberNode with nodes := d.nodes ++ [⟨nodeId (d.nodesNumbered + 1), place, symbol⟩] }

def wire (d : Draft Place) (source target : Node Place) : Edge :=
  { id := edgeId (d.edgesNumbered + 1), source := source.id, target := target.id,
    sourceHandle := some "right".toList, targetHandle := some "left".toList,
    type := some "smoothstep".toList }

def connect? (d : Draft Place) (source target : Nat) : Option (Draft Place) :=
  match d.nodes[source]?, d.nodes[target]? with
  | some s, some t => some { d.numberEdge with edges := d.edges ++ [d.wire s t] }
  | _, _ => none

def connect (d : Draft Place) (source target : Nat) : Draft Place :=
  (d.connect? source target).getD d

def closeContact (d : Draft Place) (i : Nat) : Draft Place :=
  { d with nodes := d.nodes.modify i fun n => { n with symbol := n.symbol.closed } }

theorem connect?_isSome_iff (d : Draft Place) (source target : Nat) :
    (d.connect? source target).isSome ↔ source < d.nodes.length ∧ target < d.nodes.length := by
  by_cases s : source < d.nodes.length <;> by_cases t : target < d.nodes.length <;>
    simp [connect?, s, t]

theorem ids_closeContact (d : Draft Place) (i : Nat) :
    (d.closeContact i).nodes.map (·.id) = d.nodes.map (·.id) := by
  apply List.ext_getElem?
  intro j
  simp only [closeContact, List.getElem?_map, List.getElem?_modify]
  cases d.nodes[j]? with
  | none => rfl
  | some n =>
    simp only [Option.map_eq_map, Option.map_some]
    split <;> rfl

end Draft
end StructuredText
