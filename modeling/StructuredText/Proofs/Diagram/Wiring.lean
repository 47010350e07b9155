import StructuredText.Proofs.Diagram.Isolation
import StructuredText.Proofs.Number.Numeral

/- The diagram of a unit is a well-formed graph: nodes and edges are numbered in order, and a wire
   leads from a contact or a call in an expression to one of these or to a coil. -/
namespace StructuredText

inductive SymbolKind
  | contact
  | coil
  | timer
  | functionBlock
  deriving DecidableEq

def Symbol.kind : Symbol → SymbolKind
  | .contact .. => .contact
  | .coil .. => .coil
  | .timer .. => .timer
  | .functionBlock .. => .functionBlock

theorem Symbol.kind_closed (symbol : Symbol) : symbol.closed.kind = symbol.kind := by
  cases symbol <;> rfl

/-- What a node is drawn for.  Three of these look the same in a diagram: the unit itself, a call in
    an expression, and a call that is a statement. -/
inductive Origin
  | unit
  | contact
  | coil
  | call
  | callStatement
  | timer
  deriving DecidableEq

namespace Origin

def kind : Origin → SymbolKind
  | .contact => .contact
  | .coil => .coil
  | .timer => .timer
  | .unit | .call | .callStatement => .functionBlock

def sources : List Origin := [.contact, .call]

def targets : List Origin := [.contact, .call, .coil]

def unwired : List Origin := [.unit, .callStatement, .timer]

theorem mem_targets {origin : Origin} (source : origin ∈ sources) : origin ∈ targets := by
  simp only [sources, targets, List.mem_cons, List.not_mem_nil, or_false] at source ⊢
  exact source.imp_right Or.inl

theorem notMem_targets {origin : Origin} (alone : origin ∈ unwired) : origin ∉ targets := by
  simp only [unwired, List.mem_cons, List.not_mem_nil, or_false] at alone
  rcases alone with rfl | rfl | rfl <;> decide

end Origin

def Expression.origins (inputs : List (Text × Nat)) : (levels : Nat) → Expression → List Origin
  | 0, _ => []
  | _ + 1, .variable name => if (inputs.lookup name).isSome then [] else [.contact]
  | _ + 1, .literal (.bool _) => [.contact]
  | _ + 1, .literal _ => []
  | levels + 1, .negation operand => operand.origins inputs levels
  | levels + 1, .connective _ left right =>
    left.origins inputs levels ++ right.origins inputs levels
  | _ + 1, .comparison .. => [.contact]
  | _ + 1, .call .. => [.call]

def Expression.origin : Expression → Origin
  | .call .. => .call
  | _ => .contact

theorem Expression.origin_mem_sources (e : Expression) : e.origin ∈ Origin.sources := by
  cases e <;> simp [origin, Origin.sources]

section Leaf
variable {inputs : List (Text × Nat)} {e : Expression} {symbol : Symbol}

theorem Expression.origins_leaf (levels : Nat) (unknown : e.inputNode? inputs = none)
    (shape : e.symbol? = some symbol) : e.origins inputs (levels + 1) = [e.origin] := by
  cases e with
  | literal value => cases value <;> first | rfl | contradiction
  | «variable» name =>
    have unknown : inputs.lookup name = none := unknown
    rw [origins, unknown]
    rfl
  | negation operand => contradiction
  | connective op left right => contradiction
  | comparison op left right => rfl
  | call name arguments => rfl

theorem Expression.kind_symbol? (shape : e.symbol? = some symbol) :
    symbol.kind = e.origin.kind := by
  cases e with
  | literal value =>
    cases value with
    | bool value =>
      obtain rfl := Option.some.inj shape
      rfl
    | _ => contradiction
  | negation operand => contradiction
  | connective op left right => contradiction
  | _ =>
    obtain rfl := Option.some.inj shape
    rfl

end Leaf

section Parts
variable (surface : Surface)

def Part.origins : Part → List Origin
  | .assignment levels _ e | .condition levels e => e.origins surface.inputs levels
  | .call target _ =>
    if (surface.pou.timerType? target).isSome then [.timer] else [.callStatement]
  | .cutOff => []

end Parts

def Pou.interfaceOrigins (pou : Pou) : List Origin :=
  .unit :: List.replicate pou.inputs.length .contact ++
    List.replicate pou.coilNames.length .coil

def Pou.origins (pou : Pou) (drawsElse : Bool) : List Origin :=
  pou.interfaceOrigins ++
    (pou.parts drawsElse).flatMap (Part.origins (pou.surface drawsElse).1)

section Diagram
variable {Place : Type}

def Diagram.IsDrawnFor (d : Diagram Place) (origins : List Origin) (origin : Origin) (id : Text) :
    Prop :=
  ∃ i : Nat, (d.nodes.map (·.id))[i]? = some id ∧ origins[i]? = some origin

/-- Nodes and edges are numbered in order, each node looks like what it is drawn for, and each edge
    leads from one that can be a source to one that can be a target. -/
structure Diagram.IsWiring (d : Diagram Place) (origins : List Origin) : Prop where
  nodeIds : d.nodes.map (·.id) = (List.range d.nodes.length).map fun i => nodeId (i + 1)
  edgeIds : d.edges.map (·.id) = (List.range d.edges.length).map fun i => edgeId (i + 1)
  kinds : d.nodes.map (·.symbol.kind) = origins.map Origin.kind
  ends : ∀ edge ∈ d.edges, (∃ origin ∈ Origin.sources, d.IsDrawnFor origins origin edge.source) ∧
    ∃ origin ∈ Origin.targets, d.IsDrawnFor origins origin edge.target

theorem nodeId_injective {n k : Nat} (same : nodeId n = nodeId k) : n = k :=
  naturalText_injective (List.append_cancel_left same)

variable {d : Diagram Place} {origins : List Origin}

theorem Diagram.IsWiring.place_unique (wiring : d.IsWiring origins) {id : Text} {i j : Nat}
    (one : (d.nodes.map (·.id))[i]? = some id) (other : (d.nodes.map (·.id))[j]? = some id) :
    i = j := by
  have number {i : Nat} (here : (d.nodes.map (·.id))[i]? = some id) : id = nodeId (i + 1) := by
    rw [wiring.nodeIds, List.getElem?_map] at here
    obtain ⟨k, inside, rfl⟩ := Option.map_eq_some_iff.mp here
    rw [(List.getElem?_eq_some_iff.mp inside).2.symm, List.getElem_range]
  exact Nat.succ.inj (nodeId_injective ((number one).symm.trans (number other)))

theorem Diagram.IsWiring.origin_unique (wiring : d.IsWiring origins) {id : Text}
    {first second : Origin} (one : d.IsDrawnFor origins first id)
    (other : d.IsDrawnFor origins second id) : first = second := by
  obtain ⟨i, here, origin⟩ := one
  obtain ⟨j, there, origin'⟩ := other
  obtain rfl := wiring.place_unique here there
  exact Option.some.inj (origin.symm.trans origin')

theorem Diagram.IsWiring.source_mem (wiring : d.IsWiring origins) {edge : Edge}
    (mem : edge ∈ d.edges) {origin : Origin} (drawn : d.IsDrawnFor origins origin edge.source) :
    origin ∈ Origin.sources := by
  obtain ⟨⟨other, inside, drawn'⟩, -⟩ := wiring.ends edge mem
  rwa [wiring.origin_unique drawn drawn']

theorem Diagram.IsWiring.target_mem (wiring : d.IsWiring origins) {edge : Edge}
    (mem : edge ∈ d.edges) {origin : Origin} (drawn : d.IsDrawnFor origins origin edge.target) :
    origin ∈ Origin.targets := by
  obtain ⟨-, other, inside, drawn'⟩ := wiring.ends edge mem
  rwa [wiring.origin_unique drawn drawn']

theorem getElem?_append_of_some {α : Type} {l more : List α} {i : Nat} {a : α}
    (here : l[i]? = some a) : (l ++ more)[i]? = some a := by
  rw [List.getElem?_append_left (List.getElem?_eq_some_iff.mp here).1, here]

theorem Diagram.IsDrawnFor.mono {d' : Diagram Place} {more : List Origin} {origin : Origin}
    {id : Text} (drawn : d.IsDrawnFor origins origin id)
    (ids : d.nodes.map (·.id) <+: d'.nodes.map (·.id)) :
    d'.IsDrawnFor (origins ++ more) origin id := by
  obtain ⟨i, here, there⟩ := drawn
  obtain ⟨added, eq⟩ := ids
  exact ⟨i, eq ▸ getElem?_append_of_some here, getElem?_append_of_some there⟩

theorem Diagram.IsWiring.mapPlaces {Place' : Type} (wiring : d.IsWiring origins)
    (f : Place → Place') : (d.mapPlaces f).IsWiring origins := by
  obtain ⟨nodeIds, edgeIds, kinds, ends⟩ := wiring
  have ids : (d.mapPlaces f).nodes.map (·.id) = d.nodes.map (·.id) := by
    rw [Diagram.mapPlaces, List.map_map]
    rfl
  refine ⟨?_, edgeIds, ?_, ?_⟩
  · rw [ids, nodeIds, Diagram.mapPlaces, List.length_map]
  · rw [← kinds, Diagram.mapPlaces, List.map_map]
    rfl
  · intro edge mem
    simpa only [Diagram.IsDrawnFor, ids] using ends edge mem

structure Draft.IsWired (d : Draft Place) (origins : List Origin) : Prop where
  wiring : d.diagram.IsWiring origins
  nodesNumbered : d.nodesNumbered = d.nodes.length
  edgesNumbered : d.edgesNumbered = d.edges.length

end Diagram

section Draft
variable {Place : Type} {d : Draft Place} {origins : List Origin}

theorem Draft.isWired_empty : (Draft.empty : Draft Place).IsWired [] :=
  ⟨⟨rfl, rfl, rfl, nofun⟩, rfl, rfl⟩

theorem Draft.IsWired.length_eq (wired : d.IsWired origins) : origins.length = d.nodes.length := by
  simpa [Draft.diagram] using (congrArg List.length wired.wiring.kinds).symm

theorem Draft.IsWired.kind_eq (wired : d.IsWired origins) {i : Nat} {n : Node Place}
    {origin : Origin} (here : d.nodes[i]? = some n) (drawn : origins[i]? = some origin) :
    n.symbol.kind = origin.kind := by
  have same := congrArg (·[i]?) wired.wiring.kinds
  simpa [Draft.diagram, here, drawn] using same

theorem Draft.IsWired.add (wired : d.IsWired origins) {symbol : Symbol} {origin : Origin}
    (fits : symbol.kind = origin.kind) (place : Place) :
    (d.add place symbol).IsWired (origins ++ [origin]) := by
  obtain ⟨⟨nodeIds, edgeIds, kinds, ends⟩, nodesNumbered, edgesNumbered⟩ := wired
  refine ⟨⟨?_, edgeIds, ?_, ?_⟩, ?_, edgesNumbered⟩
  · simp only [Draft.diagram, Draft.add, List.map_append, List.length_append, List.length_cons,
      List.length_nil, Nat.zero_add, List.range_succ] at nodeIds ⊢
    rw [nodeIds, nodesNumbered]
    rfl
  · simp only [Draft.diagram, Draft.add, List.map_append] at kinds ⊢
    rw [kinds]
    exact congrArg (_ ++ [·]) fits
  · intro edge mem
    have ids : d.diagram.nodes.map (·.id) <+: (d.add place symbol).diagram.nodes.map (·.id) :=
      (List.prefix_append _ _).map _
    obtain ⟨⟨source, isSource, drawn⟩, target, isTarget, drawn'⟩ := ends edge mem
    exact ⟨⟨source, isSource, drawn.mono ids⟩, target, isTarget, drawn'.mono ids⟩
  · simp [Draft.add, Draft.numberNode, nodesNumbered]

theorem Draft.IsWired.addAll (wired : d.IsWired origins) {content : List (Place × Symbol)}
    {added : List Origin} (fits : content.map (·.2.kind) = added.map Origin.kind) :
    (d.addAll content).IsWired (origins ++ added) := by
  induction content generalizing d origins added with
  | nil =>
    obtain rfl := List.map_eq_nil_iff.mp fits.symm
    rwa [List.append_nil]
  | cons first rest ih =>
    obtain ⟨origin, others, rfl, same, fits⟩ := List.map_eq_cons_iff.mp fits.symm
    have next := ih (wired.add same.symm first.1) fits.symm
    rwa [List.append_assoc] at next

theorem Draft.IsWired.connect (wired : d.IsWired origins) {source target : Nat}
    (isSource : ∃ origin ∈ Origin.sources, origins[source]? = some origin)
    (isTarget : ∃ origin ∈ Origin.targets, origins[target]? = some origin) :
    (d.connect source target).IsWired origins := by
  obtain ⟨origin, canStart, here⟩ := isSource
  obtain ⟨origin', canEnd, there⟩ := isTarget
  have inside := (List.getElem?_eq_some_iff.mp here).1
  have inside' := (List.getElem?_eq_some_iff.mp there).1
  rw [wired.length_eq] at inside inside'
  obtain ⟨⟨nodeIds, edgeIds, kinds, ends⟩, nodesNumbered, edgesNumbered⟩ := wired
  have connected : d.connect source target =
      { d.numberEdge with edges := d.edges ++ [d.wire d.nodes[source] d.nodes[target]] } := by
    simp only [Draft.connect, Draft.connect?, List.getElem?_eq_getElem inside,
      List.getElem?_eq_getElem inside', Option.getD_some]
  rw [connected]
  refine ⟨⟨nodeIds, ?_, kinds, ?_⟩, nodesNumbered, ?_⟩
  · simp only [Draft.diagram, List.map_append, List.length_append, List.length_cons,
      List.length_nil, Nat.zero_add, List.range_succ] at edgeIds ⊢
    rw [edgeIds, Draft.wire, edgesNumbered]
    rfl
  · intro edge mem
    rcases List.mem_append.mp mem with old | new
    · exact ends edge old
    · obtain rfl := List.mem_singleton.mp new
      refine ⟨⟨origin, canStart, source, ?_, here⟩, origin', canEnd, target, ?_, there⟩
      · simp [Draft.diagram, Draft.numberEdge, Draft.wire, inside]
      · simp [Draft.diagram, Draft.numberEdge, Draft.wire, inside']
  · simp [Draft.numberEdge, edgesNumbered]

theorem Draft.IsWired.closeContact (wired : d.IsWired origins) (i : Nat) :
    (d.closeContact i).IsWired origins := by
  obtain ⟨⟨nodeIds, edgeIds, kinds, ends⟩, nodesNumbered, edgesNumbered⟩ := wired
  have ids : (d.closeContact i).diagram.nodes.map (·.id) = d.diagram.nodes.map (·.id) :=
    d.ids_closeContact i
  have count : (d.closeContact i).nodes.length = d.nodes.length := List.length_modify ..
  refine ⟨⟨?_, edgeIds, ?_, ?_⟩, ?_, edgesNumbered⟩
  · rw [ids, nodeIds]
    exact congrArg (fun n => (List.range n).map _) count.symm
  · rw [← kinds]
    simp only [Draft.diagram, nodes_closeContact]
    exact map_closeAt_of_invariant (fun n => Symbol.kind_closed n.symbol) _ _
  · intro edge mem
    simpa only [Diagram.IsDrawnFor, ids] using ends edge mem
  · rw [count]
    exact nodesNumbered

end Draft

section Drawing
variable {d : Drawing} {origins : List Origin}

/-- The places are those of nodes that can be sources, and so targets too. -/
def AreSources (origins : List Origin) (places : List Nat) : Prop :=
  ∀ i ∈ places, ∃ origin ∈ Origin.sources, origins[i]? = some origin

theorem AreSources.append {places : List Nat} (sources : AreSources origins places)
    (more : List Origin) : AreSources (origins ++ more) places := by
  intro i mem
  obtain ⟨origin, isSource, here⟩ := sources i mem
  exact ⟨origin, isSource, getElem?_append_of_some here⟩

def IsWiredWith (drawn : List Nat × Drawing) (origins : List Origin) : Prop :=
  drawn.2.draft.IsWired origins ∧ AreSources origins drawn.1

theorem IsWiredWith.nothing (wired : d.draft.IsWired origins) :
    IsWiredWith ([], d) (origins ++ []) := by
  rw [List.append_nil]
  exact ⟨wired, nofun⟩

theorem IsWiredWith.addLogic (wired : d.draft.IsWired origins) {symbol : Symbol} {origin : Origin}
    (source : origin ∈ Origin.sources) (fits : symbol.kind = origin.kind) :
    IsWiredWith ([(d.addLogic symbol).1], (d.addLogic symbol).2) (origins ++ [origin]) := by
  refine ⟨wired.add fits _, ?_⟩
  intro i mem
  obtain rfl := List.mem_singleton.mp mem
  refine ⟨origin, source, ?_⟩
  rw [Drawing.addLogic, ← wired.length_eq, List.getElem?_concat_length]

theorem isWired_connect (wired : d.draft.IsWired origins) {source target : Option Nat}
    (isSource : ∀ i ∈ source, ∃ origin ∈ Origin.sources, origins[i]? = some origin)
    (isTarget : ∀ i ∈ target, ∃ origin ∈ Origin.targets, origins[i]? = some origin) :
    (d.connect source target).draft.IsWired origins := by
  unfold Drawing.connect
  split
  · exact wired.connect (isSource _ rfl) (isTarget _ rfl)
  · exact wired

theorem isWired_closeFirst (wired : d.draft.IsWired origins) (nodes : List Nat) :
    (d.closeFirst nodes).draft.IsWired origins := by
  cases nodes with
  | nil => exact wired
  | cons i rest => exact wired.closeContact i

def HasInputs (inputs : List (Text × Nat)) (origins : List Origin) : Prop :=
  ∀ name node, inputs.lookup name = some node → origins[node]? = some .contact

theorem HasInputs.append {inputs : List (Text × Nat)} (contacts : HasInputs inputs origins)
    (more : List Origin) : HasInputs inputs (origins ++ more) :=
  fun name node found => getElem?_append_of_some (contacts name node found)

theorem ExpressionDrawing.wired {inputs : List (Text × Nat)} {levels : Nat} {e : Expression}
    {drawn : List Nat × Drawing} (drawing : ExpressionDrawing inputs levels e d drawn)
    (contacts : HasInputs inputs origins) (wired : d.draft.IsWired origins) :
    IsWiredWith drawn (origins ++ e.origins inputs levels) := by
  induction drawing generalizing origins with
  | cut => exact .nothing wired
  | leaf leaf =>
    cases leaf with
    | @silent value d unseen =>
      cases value with
      | bool b => exact absurd rfl (unseen b)
      | _ => exact .nothing wired
    | known found =>
      simp only [Expression.origins, found, Option.isSome_some, if_true, List.append_nil]
      refine ⟨wired, ?_⟩
      intro i mem
      obtain rfl := List.mem_singleton.mp mem
      exact ⟨.contact, List.mem_cons_self, contacts _ i found⟩
    | fresh unknown shape =>
      rw [Expression.origins_leaf _ unknown shape]
      exact .addLogic (d := Drawing.writing _ _) wired (Expression.origin_mem_sources _)
        (Expression.kind_symbol? shape)
  | negation _ ih =>
    obtain ⟨wired', sources⟩ := ih contacts wired
    exact ⟨isWired_closeFirst wired' _, sources⟩
  | or _ _ first second =>
    obtain ⟨wired', lefts⟩ := first contacts wired
    obtain ⟨wired'', rights⟩ := second (contacts.append _) wired'
    rw [Expression.origins, ← List.append_assoc]
    exact ⟨wired'', List.forall_mem_append.mpr ⟨lefts.append _, rights⟩⟩
  | @and levels _ right _ _ _ _ _ _ _ first second =>
    obtain ⟨wired', lefts⟩ := first contacts wired
    obtain ⟨wired'', rights⟩ := second (contacts.append _) wired'
    have lefts' := lefts.append (right.origins inputs levels)
    rw [Expression.origins, ← List.append_assoc]
    refine ⟨?_, List.forall_mem_append.mpr ⟨lefts', rights⟩⟩
    refine isWired_connect wired'' (fun i mem => lefts' i (List.mem_of_getLast? mem)) ?_
    intro i mem
    obtain ⟨origin, source, here⟩ := rights i (List.mem_of_head? mem)
    exact ⟨origin, Origin.mem_targets source, here⟩

end Drawing

section Statements
variable {surface : Surface}

structure HasInterface (surface : Surface) (origins : List Origin) : Prop where
  inputs : HasInputs surface.inputs origins
  coils : ∀ name node, surface.coils.lookup name = some node → origins[node]? = some .coil

theorem HasInterface.append {origins : List Origin} (interface : HasInterface surface origins)
    (more : List Origin) : HasInterface surface (origins ++ more) :=
  ⟨interface.inputs.append more,
    fun name node found => getElem?_append_of_some (interface.coils name node found)⟩

theorem Part.wired (part : Part) {d : Drawing} {origins : List Origin}
    (interface : HasInterface surface origins) (wired : d.draft.IsWired origins) :
    (part.draw surface d).draft.IsWired (origins ++ part.origins surface) := by
  have drawing := part.drawing surface d
  generalize part.draw surface d = d' at drawing ⊢
  cases drawing with
  | @assignment _ target _ _ _ _ inner =>
    obtain ⟨wired', sources⟩ := inner.wired interface.inputs wired
    refine isWired_connect wired' (fun i mem => sources i (List.mem_of_getLast? mem)) ?_
    intro i mem
    exact ⟨.coil, by decide, (interface.append _).coils target i mem⟩
  | condition inner => exact (inner.wired interface.inputs wired).1
  | timer typed =>
    rw [Part.origins, typed]
    exact wired.add rfl _
  | call untyped =>
    rw [Part.origins, untyped]
    exact wired.add rfl _
  | cutOff => rwa [Part.origins, List.append_nil]

theorem drawParts_wired (parts : List Part) {d : Drawing} {origins : List Origin}
    (interface : HasInterface surface origins) (wired : d.draft.IsWired origins) :
    (drawParts surface parts d).draft.IsWired
      (origins ++ parts.flatMap (Part.origins surface)) := by
  induction parts generalizing d origins with
  | nil => rwa [List.flatMap_nil, List.append_nil]
  | cons part rest ih =>
    rw [List.flatMap_cons, ← List.append_assoc]
    exact ih (interface.append _) (part.wired interface wired)

end Statements

section Unit
variable (pou : Pou) (drawsElse : Bool)

theorem surface_wired : (pou.surface drawsElse).2.draft.IsWired pou.interfaceOrigins := by
  have contacts (names : List Text) : (inputNodes names).map (·.2.kind) =
      List.replicate names.length SymbolKind.contact := by
    apply List.ext_getElem <;> simp [inputNodes, Symbol.kind]
  have coils (names : List Text) : (coilNodes names).map (·.2.kind) =
      List.replicate names.length SymbolKind.coil := by
    apply List.ext_getElem <;> simp [coilNodes, Symbol.kind]
  refine Draft.isWired_empty.addAll ?_
  rw [List.cons_append, List.map_cons, List.map_append, contacts, coils]
  simp [Origin.kind, Pou.blockSymbol, Symbol.kind]

theorem surface_hasInterface :
    HasInterface (pou.surface drawsElse).1 pou.interfaceOrigins := by
  constructor
  · intro name node found
    obtain ⟨i, here, rfl⟩ := mem_of_surface_lookup found
    have bound := (List.getElem?_eq_some_iff.mp here).1
    rw [List.length_map] at bound
    simp [Pou.interfaceOrigins, List.getElem?_append, bound]
  · intro name node found
    obtain ⟨i, here, rfl⟩ := of_mem_numberedFrom (mem_of_lookup found)
    have bound := (List.getElem?_eq_some_iff.mp here).1
    rw [List.length_map, Nat.add_assoc, Nat.add_comm 1, Pou.interfaceOrigins, List.cons_append,
      List.getElem?_cons_succ, List.getElem?_append_right (by simp)]
    simp [bound]

theorem draw_wired : (pou.draw drawsElse).draft.IsWired (pou.origins drawsElse) := by
  rw [draw_eq_drawParts]
  exact drawParts_wired _ (surface_hasInterface pou drawsElse) (surface_wired pou drawsElse)

end Unit

/-- Nodes and edges of a diagram are numbered in order, and its nodes look like what they are drawn
    for.  Every edge leads from a contact or a call in an expression to one of these or to a coil;
    none leads from a coil, and none touches the unit's own block, a timer or a call statement. -/
theorem Layout.diagram?_isWiring (layout : Layout) {pou : Pou} {d : Diagram Position}
    (drawn : layout.diagram? pou = some d) :
    d.IsWiring (pou.origins layout.drawsElse) ∧
      ∀ edge ∈ d.edges, ∀ origin id, d.IsDrawnFor (pou.origins layout.drawsElse) origin id →
        (origin = .coil → edge.source ≠ id) ∧
          (origin ∈ Origin.unwired → edge.source ≠ id ∧ edge.target ≠ id) := by
  obtain rfl := layout.of_diagram? drawn
  have wiring := (draw_wired pou layout.drawsElse).wiring.mapPlaces layout.position
  refine ⟨wiring, ?_⟩
  intro edge mem origin id here
  have source : edge.source = id → origin ∈ Origin.sources := by
    rintro rfl
    exact wiring.source_mem mem here
  have target : edge.target = id → origin ∈ Origin.targets := by
    rintro rfl
    exact wiring.target_mem mem here
  constructor
  · rintro rfl same
    exact absurd (source same) (by decide)
  · intro unwired
    have neither := Origin.notMem_targets unwired
    exact ⟨fun same => neither (Origin.mem_targets (source same)),
      fun same => neither (target same)⟩

def timedUnit : Pou :=
  ⟨.program, "Timed".toList, none,
    [⟨"a".toList, "BOOL".toList, .input, none⟩, ⟨"t".toList, "TON".toList, .internal, none⟩,
      ⟨"x".toList, "BOOL".toList, .output, none⟩],
    [.assignment "x".toList (.connective .and (.negation (.variable "a".toList))
        (.call "f".toList [.variable "a".toList])),
      .conditional (some (.variable "a".toList))
        (some [.call "t".toList "t".toList [.variable "T#1s".toList],
          .call "g".toList "g".toList []]) none]⟩

theorem diagram?_isWiring_timedUnit :
    timedUnit.origins false = [.unit, .contact, .coil, .call, .timer, .callStatement] ∧
      ∃ d, Layout.standard.diagram? timedUnit = some d ∧ d.edges.length = 2 ∧
        d.IsWiring (timedUnit.origins false) := by
  refine ⟨by decide, _, rfl, by decide, ?_⟩
  exact (Layout.standard.diagram?_isWiring rfl).1

end StructuredText
