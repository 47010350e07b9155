import Mathlib.Data.List.Forall2
import StructuredText.Proofs.Diagram.Wiring
import StructuredText.Proofs.Expression.Height

/- What is drawn for an expression: a node for each of its atoms, from left to right, and wires
   between them.  An AND wires the last node of its left side to the first of its right side, so
   that without an OR there is a wire from each node to the next, whatever the brackets. -/
namespace StructuredText
open Drawing

def Expression.atoms : Expression → List Expression
  | .literal (.bool value) => [.literal (.bool value)]
  | .literal _ => []
  | .negation operand => operand.atoms
  | .connective _ left right => left.atoms ++ right.atoms
  | e => [e]

/-- No OR stands above the comparisons and calls. -/
def Expression.isOrFree : Expression → Bool
  | .negation operand => operand.isOrFree
  | .connective op left right => op = .and && left.isOrFree && right.isOrFree
  | _ => true

def Diagram.Shows {Place : Type} (d : Diagram Place) (atom : Expression) (place : Nat) : Prop :=
  ∃ n symbol, d.nodes[place]? = some n ∧ atom.symbol? = some symbol ∧
    (n.symbol = symbol ∨ n.symbol = symbol.closed)

theorem Diagram.getElem?_mapPlaces {Place Place' : Type} (f : Place → Place') {d : Diagram Place}
    {place : Nat} {n : Node Place} (here : d.nodes[place]? = some n) :
    (d.mapPlaces f).nodes[place]? = some ⟨n.id, f n.place, n.symbol⟩ := by
  rw [mapPlaces, List.getElem?_map, here, Option.map_some]

theorem Diagram.shows_mapPlaces {Place Place' : Type} (f : Place → Place') {d : Diagram Place}
    {atom : Expression} {place : Nat} (shows : d.Shows atom place) :
    (d.mapPlaces f).Shows atom place := by
  obtain ⟨n, symbol, here, shape, same⟩ := shows
  exact ⟨_, symbol, Diagram.getElem?_mapPlaces f here, shape, same⟩

section Places
variable (inputs : List (Text × Nat))

/-- The places of the nodes of atoms: the variable of an input has that of its contact, the others
    have those from `first` on, in order. -/
def atomPlaces : (first : Nat) → List Expression → List Nat
  | _, [] => []
  | first, atom :: rest =>
    match atom.inputNode? inputs with
    | some node => node :: atomPlaces first rest
    | none => first :: atomPlaces (first + 1) rest

def freshAtoms (atoms : List Expression) : List Expression :=
  atoms.filter fun atom => (atom.inputNode? inputs).isNone

theorem atomPlaces_append (first : Nat) (left right : List Expression) :
    atomPlaces inputs first (left ++ right) = atomPlaces inputs first left ++
      atomPlaces inputs (first + (freshAtoms inputs left).length) right := by
  induction left generalizing first with
  | nil => rfl
  | cons atom rest ih =>
    cases known : atom.inputNode? inputs with
    | some node => simp [atomPlaces, freshAtoms, known, ih]
    | none =>
      have next : first + ((freshAtoms inputs rest).length + 1) =
          first + 1 + (freshAtoms inputs rest).length := by omega
      simp only [freshAtoms] at next ih
      simp [atomPlaces, freshAtoms, known, ih, next]

end Places

section Shown
variable {d d' : Drawing} {atom : Expression} {place : Nat}

theorem Drawing.Grows.node_kept {places : List Nat} {labels : List Expression}
    (grows : Grows places labels d d') {n : Node Spot} (here : d.draft.nodes[place]? = some n) :
    ∃ n', d'.draft.nodes[place]? = some n' ∧ (n' = n ∨ n' = n.closed) := by
  obtain ⟨added, nodes⟩ := grows.nodes
  have kept : (closeAt places d.draft.nodes)[place]? =
      some (if place ∈ places then n.closed else n) := by
    rw [getElem?_closeAt, here, Option.map_some]
  refine ⟨if place ∈ places then n.closed else n, ?_, ?_⟩
  · rw [nodes, getElem?_append_of_some kept]
  · split
    · exact Or.inr rfl
    · exact Or.inl rfl

theorem Drawing.Grows.shows {places : List Nat} {labels : List Expression}
    (grows : Grows places labels d d') (shown : d.draft.diagram.Shows atom place) :
    d'.draft.diagram.Shows atom place := by
  obtain ⟨n, symbol, here, shape, same⟩ := shown
  obtain ⟨n', there, rfl | rfl⟩ := grows.node_kept here
  · exact ⟨_, symbol, there, shape, same⟩
  · have twice : symbol.closed.closed = symbol.closed := by cases symbol <;> rfl
    refine ⟨_, symbol, there, shape, Or.inr ?_⟩
    rcases same with opened | closed
    · rw [Node.closed, opened]
    · rw [Node.closed, closed, twice]

theorem Drawing.shows_addLogic {symbol : Symbol} (shape : atom.symbol? = some symbol) :
    (d.addLogic symbol).2.draft.diagram.Shows atom d.draft.nodes.length :=
  ⟨_, symbol, List.getElem?_concat_length, shape, Or.inl rfl⟩

end Shown

theorem Expression.atoms_leaf {e : Expression} {symbol : Symbol}
    (shape : e.symbol? = some symbol) : e.atoms = [e] := by
  cases e with
  | literal value => cases value <;> first | rfl | contradiction
  | negation operand => contradiction
  | connective op left right => contradiction
  | _ => rfl

section Nodes
variable {inputs : List (Text × Nat)} {atoms : List Expression} {d e f : Drawing}

structure Drawing.ShowsAtoms (inputs : List (Text × Nat)) (atoms : List Expression) (d : Drawing)
    (drawn : List Nat × Drawing) : Prop where
  places : drawn.1 = atomPlaces inputs d.draft.nodes.length atoms
  count : drawn.2.draft.nodes.length = d.draft.nodes.length + (freshAtoms inputs atoms).length
  shown : List.Forall₂ drawn.2.draft.diagram.Shows atoms drawn.1

theorem Drawing.ShowsAtoms.further {nodes places : List Nat} {labels : List Expression}
    (shows : ShowsAtoms inputs atoms d (nodes, e)) (grows : Grows places labels e f)
    (count : f.draft.nodes.length = e.draft.nodes.length) :
    ShowsAtoms inputs atoms d (nodes, f) :=
  ⟨shows.places, count.trans shows.count, shows.shown.imp fun _ _ shown => grows.shows shown⟩

theorem Drawing.ShowsAtoms.append {left right : List Expression} {lefts rights places : List Nat}
    {labels : List Expression} (first : ShowsAtoms inputs left d (lefts, e))
    (grows : Grows places labels e f) (second : ShowsAtoms inputs right e (rights, f)) :
    ShowsAtoms inputs (left ++ right) d (lefts ++ rights, f) := by
  have here : lefts = atomPlaces inputs d.draft.nodes.length left := first.places
  have there : rights = atomPlaces inputs e.draft.nodes.length right := second.places
  have count : e.draft.nodes.length =
      d.draft.nodes.length + (freshAtoms inputs left).length := first.count
  refine ⟨?_, ?_, ?_⟩
  · rw [atomPlaces_append, ← count, ← here, ← there]
  · rw [second.count, count, freshAtoms, freshAtoms, freshAtoms, List.filter_append,
      List.length_append, Nat.add_assoc]
  · exact List.rel_append (first.shown.imp fun _ _ shown => grows.shows shown) second.shown

def Drawing.ShowsInputs (inputs : List (Text × Nat)) (d : Drawing) : Prop :=
  ∀ name node, inputs.lookup name = some node → d.draft.diagram.Shows (.variable name) node

theorem Drawing.ShowsInputs.later {places : List Nat} {labels : List Expression}
    (shows : ShowsInputs inputs d) (grows : Grows places labels d e) : ShowsInputs inputs e :=
  fun name node found => grows.shows (shows name node found)

theorem LeafDrawing.showsAtoms {x : Expression} {drawn : List Nat × Drawing}
    (leaf : LeafDrawing inputs x d drawn) (contacts : ShowsInputs inputs d) :
    ShowsAtoms inputs x.atoms d drawn := by
  cases leaf with
  | @silent value d unseen =>
    cases value with
    | bool b => exact absurd rfl (unseen b)
    | _ => exact ⟨rfl, rfl, .nil⟩
  | @known name node d found =>
    refine ⟨?_, ?_, .cons (contacts name node found) .nil⟩
    · simp [Expression.atoms, atomPlaces, Expression.inputNode?, found]
    · simp [Expression.atoms, freshAtoms, Expression.inputNode?, found]
  | @fresh x symbol d unknown shape =>
    rw [Expression.atoms_leaf shape]
    refine ⟨?_, ?_, .cons (shows_addLogic (d := d.writing _) shape) .nil⟩
    · simp [atomPlaces, unknown]
    · simp [freshAtoms, unknown, addLogic, Draft.add, Drawing.writing]

theorem ExpressionDrawing.showsAtoms {levels : Nat} {x : Expression} {drawn : List Nat × Drawing}
    (drawing : ExpressionDrawing inputs levels x d drawn) (low : x.height ≤ levels)
    (contacts : ShowsInputs inputs d) : ShowsAtoms inputs x.atoms d drawn := by
  induction drawing with
  | cut => exact absurd low (Nat.not_le_of_lt (Expression.height_pos _))
  | leaf leaf => exact leaf.showsAtoms contacts
  | @negation _ _ _ d' nodes _ ih =>
    refine (ih (Nat.le_of_succ_le_succ low) contacts).further (grows_closeFirst d' nodes) ?_
    unfold Drawing.closeFirst
    split
    · exact List.length_modify ..
    · rfl
  | or before behind first second =>
    obtain ⟨lowLeft, lowRight⟩ := Nat.max_le.mp (Nat.le_of_succ_le_succ low)
    exact (first lowLeft contacts).append behind.grows.1
      (second lowRight (contacts.later before.grows.1))
  | and before behind first second =>
    obtain ⟨lowLeft, lowRight⟩ := Nat.max_le.mp (Nat.le_of_succ_le_succ low)
    have both := (first lowLeft contacts).append behind.grows.1
      (second lowRight (contacts.later before.grows.1))
    exact both.further (grows_connect _ _ _) (congrArg List.length (nodes_connect_draft ..))

end Nodes
end StructuredText
