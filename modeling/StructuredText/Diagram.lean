import StructuredText.Number.LReal
import StructuredText.Text.Basic

/- Ladder diagrams: symbols at places, wired by edges. -/
namespace StructuredText

inductive Symbol
  | contact (label : Text) (state : Bool) (normallyClosed : Option Bool)
  | coil (label : Text) (state : Bool) (normallyOpen : Option Bool)
  | timer (label : Text) (preset accumulated : Int) (type : Option Text)
  | functionBlock (label : Text) (inputs outputs : List Text) (vendor : Option Text)
  deriving DecidableEq

namespace Symbol

def label : Symbol → Text
  | .contact label .. | .coil label .. | .timer label .. | .functionBlock label .. => label

/-- A contact that conducts while its variable is off; other symbols stay as they are. -/
def closed : Symbol → Symbol
  | .contact label state _ => .contact label state (some true)
  | symbol => symbol

theorem label_closed (symbol : Symbol) : symbol.closed.label = symbol.label := by
  cases symbol <;> rfl

end Symbol

@[ext]
structure Point (Number : Type) where
  x : Number
  y : Number
  deriving DecidableEq

def Point.map {Number Number' : Type} (f : Number → Number') (p : Point Number) : Point Number' :=
  ⟨f p.x, f p.y⟩

abbrev Position := Point LReal

structure Node (Place : Type) where
  id : Text
  place : Place
  symbol : Symbol
  deriving DecidableEq

structure Edge where
  id : Text
  source : Text
  target : Text
  sourceHandle : Option Text
  targetHandle : Option Text
  type : Option Text
  deriving DecidableEq

structure Diagram (Place : Type) where
  nodes : List (Node Place)
  edges : List Edge
  deriving DecidableEq

namespace Diagram
variable {Place : Type}

def empty : Diagram Place := ⟨[], []⟩

def node? (d : Diagram Place) (id : Text) : Option (Node Place) := d.nodes.find? (·.id = id)

def labelled (d : Diagram Place) (label : Text) : List (Node Place) :=
  d.nodes.filter (·.symbol.label = label)

def mapPlaces {Place' : Type} (f : Place → Place') (d : Diagram Place) : Diagram Place' :=
  ⟨d.nodes.map fun n => ⟨n.id, f n.place, n.symbol⟩, d.edges⟩

end Diagram
end StructuredText
