import Mathlib.Data.List.Count
import Mathlib.Data.List.Nodup
import StructuredText.Diagram.Ladder
import StructuredText.Proofs.Diagram.Names
import StructuredText.Proofs.Diagram.Series
import StructuredText.Proofs.Diagram.Wiring

/- Diagrams that are drawn from patterns, and ladders, are paths side by side: each contact is wired
   to the node behind it, and nothing else is wired. -/
namespace StructuredText
open Drawing

section Diagram
variable {Place : Type}

def AreCounted (nodes : List (Node Place)) : Prop :=
  nodes.map (·.id) = (List.range nodes.length).map fun i => nodeId (i + 1)

def Diagram.contactPlaces (d : Diagram Place) : List Nat :=
  (d.nodes.map (·.symbol.kind)).idxsOf .contact

def Diagram.ends (d : Diagram Place) : List (Text × Text) :=
  d.edges.map fun edge => (edge.source, edge.target)

structure Diagram.WiresContacts (d : Diagram Place) : Prop where
  ids : AreCounted d.nodes
  ends : d.ends = d.contactPlaces.map fun i => (nodeId (i + 1), nodeId (i + 2))
  behind : ∀ i ∈ d.contactPlaces, i + 1 < d.nodes.length

/-- Paths without a node in common, each from one node to the next. -/
structure Diagram.IsForwardPaths (d : Diagram Place) : Prop where
  ids : AreCounted d.nodes
  forward : ∀ edge ∈ d.edges, ∃ k, 0 < k ∧ k < d.nodes.length ∧
    edge.source = nodeId k ∧ edge.target = nodeId (k + 1)
  outgoing : ∀ n ∈ d.nodes,
    (d.edges.map (·.source)).count n.id = if n.symbol.kind = .contact then 1 else 0
  sources : (d.edges.map (·.source)).Nodup
  targets : (d.edges.map (·.target)).Nodup

variable {d : Diagram Place}

theorem AreCounted.id_eq {nodes : List (Node Place)} (ids : AreCounted nodes) {i : Nat}
    (bound : i < nodes.length) : nodes[i].id = nodeId (i + 1) := by
  have same := congrArg (·[i]?) ids
  simpa [bound] using same

theorem Diagram.mem_contactPlaces {i : Nat} {n : Node Place} (here : d.nodes[i]? = some n) :
    i ∈ d.contactPlaces ↔ n.symbol.kind = .contact := by
  obtain ⟨bound, rfl⟩ := List.getElem?_eq_some_iff.mp here
  have inside : i < (d.nodes.map (·.symbol.kind)).length := by rwa [List.length_map]
  rw [contactPlaces, List.mem_idxsOf_iff_getElem_pos inside, List.getElem_map, beq_iff_eq]

theorem Diagram.nodup_contactPlaces (d : Diagram Place) : d.contactPlaces.Nodup :=
  List.nodup_findIdxs

namespace Diagram.WiresContacts

theorem sources_eq (wires : d.WiresContacts) :
    d.edges.map (·.source) = d.contactPlaces.map fun i => nodeId (i + 1) := by
  have firsts := congrArg (List.map Prod.fst) wires.ends
  rwa [Diagram.ends, List.map_map, List.map_map] at firsts

theorem targets_eq (wires : d.WiresContacts) :
    d.edges.map (·.target) = d.contactPlaces.map fun i => nodeId (i + 2) := by
  have seconds := congrArg (List.map Prod.snd) wires.ends
  rwa [Diagram.ends, List.map_map, List.map_map] at seconds

theorem isForwardPaths (wires : d.WiresContacts) : d.IsForwardPaths := by
  have source : Function.Injective fun i : Nat => nodeId (i + 1) :=
    fun _ _ same => Nat.succ.inj (nodeId_injective same)
  have target : Function.Injective fun i : Nat => nodeId (i + 2) :=
    fun _ _ same => Nat.succ.inj (Nat.succ.inj (nodeId_injective same))
  refine ⟨wires.ids, ?forward, ?outgoing, ?sources, ?targets⟩
  case forward =>
    intro edge mem
    have led : (edge.source, edge.target) ∈ d.ends := List.mem_map_of_mem mem
    rw [wires.ends] at led
    obtain ⟨i, place, same⟩ := List.mem_map.mp led
    obtain ⟨first, second⟩ := Prod.mk.inj same
    exact ⟨i + 1, Nat.succ_pos i, wires.behind i place, first.symm, second.symm⟩
  case outgoing =>
    intro n mem
    obtain ⟨i, bound, rfl⟩ := List.getElem_of_mem mem
    rw [wires.sources_eq, wires.ids.id_eq bound, List.count_map_of_injective _ _ source,
      List.Nodup.count d.nodup_contactPlaces]
    exact if_congr (mem_contactPlaces (List.getElem?_eq_getElem bound)) rfl rfl
  case sources =>
    rw [wires.sources_eq]
    exact d.nodup_contactPlaces.map source
  case targets =>
    rw [wires.targets_eq]
    exact d.nodup_contactPlaces.map target

end Diagram.WiresContacts
end Diagram

section Draft
variable {Place : Type} {d : Draft Place}

structure Draft.IsCounted (d : Draft Place) : Prop where
  ids : AreCounted d.nodes
  nodesNumbered : d.nodesNumbered = d.nodes.length

theorem Draft.IsCounted.add (counted : d.IsCounted) (place : Place) (symbol : Symbol) :
    (d.add place symbol).IsCounted := by
  obtain ⟨ids, nodesNumbered⟩ := counted
  constructor
  · simp only [AreCounted, Draft.add, List.map_append, List.length_append, List.length_singleton,
      List.range_succ]
    rw [ids, nodesNumbered]
    rfl
  · simp [Draft.add, Draft.numberNode, nodesNumbered]

theorem Draft.IsCounted.addAll (counted : d.IsCounted) (content : List (Place × Symbol)) :
    (d.addAll content).IsCounted := by
  induction content generalizing d with
  | nil => exact counted
  | cons first rest ih => exact ih (counted.add first.1 first.2)

theorem Draft.edges_addAll (d : Draft Place) (content : List (Place × Symbol)) :
    (d.addAll content).edges = d.edges := by
  induction content generalizing d with
  | nil => rfl
  | cons first rest ih => exact ih (d.add first.1 first.2)

theorem Draft.kinds_addAll (d : Draft Place) (content : List (Place × Symbol)) :
    (d.addAll content).nodes.map (·.symbol.kind) =
      d.nodes.map (·.symbol.kind) ++ content.map (·.2.kind) :=
  d.map_addAll content (·.2.kind)

theorem Draft.length_addAll (d : Draft Place) (content : List (Place × Symbol)) :
    (d.addAll content).nodes.length = d.nodes.length + content.length := by
  obtain ⟨added, nodes, rfl⟩ := d.nodes_addAll content
  rw [nodes, List.length_append, List.length_map]

theorem Draft.IsCounted.connect (counted : d.IsCounted) (source target : Nat) :
    (d.connect source target).IsCounted := by
  rw [Draft.connect, Draft.connect?]
  split <;> exact ⟨counted.ids, counted.nodesNumbered⟩

theorem Draft.IsCounted.ends_connect (counted : d.IsCounted) {source target : Nat}
    (here : source < d.nodes.length) (there : target < d.nodes.length) :
    (d.connect source target).diagram.ends =
      d.diagram.ends ++ [(nodeId (source + 1), nodeId (target + 1))] := by
  have connected : (d.connect source target).edges =
      d.edges ++ [d.wire d.nodes[source] d.nodes[target]] := by
    simp only [Draft.connect, Draft.connect?, List.getElem?_eq_getElem here,
      List.getElem?_eq_getElem there, Option.getD_some]
  simp [Diagram.ends, Draft.diagram, connected, Draft.wire, counted.ids.id_eq here,
    counted.ids.id_eq there]

def Draft.wireSeries (d : Draft Place) (first count : Nat) : Draft Place :=
  (List.range count).foldl (fun d i => d.connect (first + i) (first + i + 1)) d

theorem Draft.wireSeries_succ (d : Draft Place) (first count : Nat) :
    d.wireSeries first (count + 1) =
      (d.wireSeries first count).connect (first + count) (first + count + 1) := by
  rw [wireSeries, List.range_succ, List.foldl_append]
  rfl

theorem Draft.nodes_wireSeries (d : Draft Place) (first count : Nat) :
    (d.wireSeries first count).nodes = d.nodes := by
  induction count with
  | zero => rfl
  | succ count ih => rw [wireSeries_succ, nodes_connect, ih]

theorem Draft.IsCounted.wireSeries (counted : d.IsCounted) (first count : Nat) :
    (d.wireSeries first count).IsCounted := by
  induction count with
  | zero => exact counted
  | succ count ih =>
    rw [wireSeries_succ]
    exact ih.connect _ _

theorem Draft.IsCounted.ends_wireSeries (counted : d.IsCounted) {first count : Nat}
    (bound : first + count < d.nodes.length) :
    (d.wireSeries first count).diagram.ends = d.diagram.ends ++
      (List.range' first count).map fun i => (nodeId (i + 1), nodeId (i + 2)) := by
  induction count with
  | zero => simp [Draft.wireSeries]
  | succ count ih =>
    have here : first + count < (d.wireSeries first count).nodes.length := by
      rw [nodes_wireSeries]
      omega
    have there : first + count + 1 < (d.wireSeries first count).nodes.length := by
      rwa [nodes_wireSeries]
    rw [wireSeries_succ, (counted.wireSeries first count).ends_connect here there,
      ih (Nat.lt_of_succ_lt bound), List.append_assoc, List.range'_concat, List.map_append,
      Nat.one_mul, List.map_singleton]

def Draft.addChain (d : Draft Place) (contacts : List (Place × Symbol)) (last : Place × Symbol) :
    Draft Place :=
  (d.addAll (contacts ++ [last])).wireSeries d.nodes.length contacts.length

/-- Every contact so far is wired, and the next number is that behind the last node. -/
structure Draft.WiresContacts (d : Draft Place) : Prop where
  diagram : d.diagram.WiresContacts
  nodesNumbered : d.nodesNumbered = d.nodes.length

theorem Draft.wiresContacts_empty : (Draft.empty : Draft Place).WiresContacts :=
  ⟨⟨rfl, rfl, nofun⟩, rfl⟩

theorem idxsOf_replicate {α : Type} [DecidableEq α] (a : α) (count start : Nat) :
    (List.replicate count a).idxsOf a start = List.range' start count := by
  induction count generalizing start with
  | zero => rfl
  | succ count ih =>
    rw [List.replicate_succ, List.idxsOf_cons, if_pos BEq.rfl, ih, List.range'_succ]

theorem Draft.contactPlaces_addChain (d : Draft Place) {contacts : List (Place × Symbol)}
    {last : Place × Symbol} (series : ∀ content ∈ contacts, content.2.kind = .contact)
    (stop : last.2.kind ≠ .contact) : (d.addChain contacts last).diagram.contactPlaces =
      d.diagram.contactPlaces ++ List.range' d.nodes.length contacts.length := by
  have kinds : contacts.map (·.2.kind) = List.replicate contacts.length .contact := by
    rw [← List.map_const']
    exact List.map_congr_left series
  have alone : ∀ start, [last.2.kind].idxsOf .contact start = [] := by
    intro start
    rw [List.idxsOf_cons, if_neg (by simpa using stop), List.idxsOf_nil]
  simp only [Diagram.contactPlaces, Draft.diagram, Draft.addChain, nodes_wireSeries, kinds_addAll,
    List.map_append, List.map_singleton, kinds, List.idxsOf_append, List.length_map, Nat.zero_add,
    idxsOf_replicate, alone, List.append_nil]

/-- A chain that ends in something else than a contact leaves every contact wired. -/
theorem Draft.WiresContacts.addChain (wires : d.WiresContacts) {contacts : List (Place × Symbol)}
    {last : Place × Symbol} (series : ∀ content ∈ contacts, content.2.kind = .contact)
    (stop : last.2.kind ≠ .contact) : (d.addChain contacts last).WiresContacts := by
  obtain ⟨⟨ids, ends, behind⟩, nodesNumbered⟩ := wires
  let added := d.addAll (contacts ++ [last])
  have counted : added.IsCounted := Draft.IsCounted.addAll ⟨ids, nodesNumbered⟩ _
  have count : added.nodes.length = d.nodes.length + (contacts.length + 1) := by
    rw [Draft.length_addAll, List.length_append, List.length_singleton]
  have old : added.diagram.ends = d.diagram.ends :=
    congrArg (List.map _) (d.edges_addAll (contacts ++ [last]))
  refine ⟨⟨?ids, ?ends, ?behind⟩, ?numbers⟩
  case ids => exact (counted.wireSeries _ _).ids
  case ends =>
    rw [d.contactPlaces_addChain series stop, List.map_append, ← ends, ← old]
    exact counted.ends_wireSeries (by omega)
  case behind =>
    intro i place
    rw [d.contactPlaces_addChain series stop, List.mem_append, List.mem_range'_1] at place
    have all : (d.addChain contacts last).diagram.nodes.length = added.nodes.length :=
      congrArg List.length (added.nodes_wireSeries _ _)
    rw [all, count]
    rcases place with earlier | ⟨-, new⟩
    · have bound : i + 1 < d.nodes.length := behind i earlier
      omega
    · omega
  case numbers => exact (counted.wireSeries _ _).nodesNumbered

theorem Draft.WiresContacts.add (wires : d.WiresContacts) (place : Place) {symbol : Symbol}
    (stop : symbol.kind ≠ .contact) : (d.add place symbol).WiresContacts :=
  show (d.addChain [] (place, symbol)).WiresContacts from wires.addChain nofun stop

end Draft

section Patterns
variable {d : Draft Unit}

theorem kind_operandSymbol (operand : Text) : (operandSymbol operand).kind = .contact := by
  rw [operandSymbol]
  split <;> rfl

theorem addRung_eq_addChain (d : Draft Unit) (target : Text) (operands : List Text) :
    addRung d target operands = d.addChain (operands.map fun operand => ((), operandSymbol operand))
      ((), .coil target false (some true)) := by
  simp only [addRung, Draft.addChain, Draft.wireSeries, Draft.addAll, List.foldl_append,
    List.foldl_map, List.length_map, List.foldl_cons, List.foldl_nil]

theorem addTimer_wires (wires : d.WiresContacts) (line : Text) :
    (addTimer line d).WiresContacts := by
  rw [addTimer]
  split
  · exact wires.add () nofun
  · exact wires

theorem addSeries_wires (wires : d.WiresContacts) (line : Text) :
    (addSeries line d).WiresContacts := by
  rw [addSeries]
  split
  · exact wires
  · split
    · exact wires
    · rw [addRung_eq_addChain]
      refine wires.addChain ?_ nofun
      intro content mem
      obtain ⟨operand, -, rfl⟩ := List.mem_map.mp mem
      exact kind_operandSymbol operand

theorem addBlock_wires (wires : d.WiresContacts) (line : Text) :
    (addBlock line d).WiresContacts := by
  rw [addBlock]
  split
  · exact wires
  · split
    · exact wires
    · split
      · exact wires
      · exact wires.add () nofun

theorem drawLine_wires (wires : d.WiresContacts) (line : Text) : (drawLine d line).WiresContacts :=
  addBlock_wires (addSeries_wires (addTimer_wires wires line) line) line

theorem drawLines_wires (lines : List Text) : (drawLines lines).WiresContacts := by
  suffices kept : ∀ d : Draft Unit, d.WiresContacts → (lines.foldl drawLine d).WiresContacts from
    kept _ Draft.wiresContacts_empty
  induction lines with
  | nil => exact fun _ wires => wires
  | cons line rest ih => exact fun d wires => ih _ (drawLine_wires wires line)

end Patterns

section Known

theorem fixedChain_eq_addChain (contacts : List ((Int × Int) × Symbol))
    (last : (Int × Int) × Symbol) :
    let place (content : (Int × Int) × Symbol) : Position × Symbol :=
      (⟨LReal.ofInt content.1.1, LReal.ofInt content.1.2⟩, content.2)
    fixedChain (contacts ++ [last]) =
      (Draft.empty.addChain (contacts.map place) (place last)).diagram := by
  simp only [fixedChain, Draft.addChain, Draft.wireSeries, Draft.addAll, List.foldl_append,
    List.foldl_map, List.foldl_cons, List.foldl_nil, List.length_append, List.length_map,
    List.length_singleton, Nat.add_sub_cancel, Draft.empty, List.length_nil, Nat.zero_add]

theorem fixedChain_wires {contacts : List ((Int × Int) × Symbol)} {last : (Int × Int) × Symbol}
    (series : ∀ content ∈ contacts, content.2.kind = .contact) (stop : last.2.kind ≠ .contact) :
    (fixedChain (contacts ++ [last])).WiresContacts := by
  rw [fixedChain_eq_addChain]
  refine Draft.WiresContacts.diagram (Draft.wiresContacts_empty.addChain ?_ stop)
  intro content mem
  obtain ⟨point, inside, rfl⟩ := List.mem_map.mp mem
  exact series point inside

theorem knownProgram?_wires {source : Text} {d : Diagram Position}
    (known : knownProgram? source = some d) : d.WiresContacts := by
  rcases knownProgram?_cases known with rfl | rfl
  · exact @fixedChain_wires [_, _] _ (by decide) nofun
  · exact @fixedChain_wires [_, _] _ (by decide) nofun

end Known

theorem Diagram.WiresContacts.arrange {Place : Type} {d : Diagram Place} (wires : d.WiresContacts)
    (grid : Grid) : Diagram.WiresContacts ⟨grid.arrange d.nodes, d.edges⟩ := by
  have count : (grid.arrange d.nodes).length = d.nodes.length := List.length_mapIdx
  have places : Diagram.contactPlaces ⟨grid.arrange d.nodes, d.edges⟩ = d.contactPlaces :=
    congrArg (List.idxsOf SymbolKind.contact ·)
      (grid.map_arrange d.nodes fun _ symbol => symbol.kind)
  refine ⟨?_, by rw [places]; exact wires.ends, by rw [places, count]; exact wires.behind⟩
  rw [AreCounted, count, ← wires.ids]
  exact grid.map_arrange d.nodes fun id _ => id

theorem Grid.position_standard (i : Nat) : standard.position i =
    ⟨LReal.ofInt (100 + 250 * (i % 3)), LReal.ofInt (100 + 150 * (i / 3))⟩ := by
  have place : standard.position i =
      ⟨LReal.ofInt (100 + Int.fmod i 3 * 250), LReal.ofInt (100 + Int.fdiv i 3 * 150)⟩ := rfl
  rw [place, Int.fmod_eq_emod_of_nonneg _ (by decide), Int.fdiv_eq_ediv_of_nonneg _ (by decide),
    Int.mul_comm 250, Int.mul_comm 150]

theorem patternDiagram_wires (source : Text) : (patternDiagram source).WiresContacts := by
  cases known : knownProgram? source with
  | some d =>
    rw [patternDiagram_of_known known]
    exact knownProgram?_wires known
  | none =>
    rw [patternDiagram_of_unknown known]
    exact (drawLines_wires (lineTexts source)).diagram.arrange Grid.standard

theorem addRungs_cons (d : Draft Position) (above : Nat) (rung : Text × Text)
    (rest : List (Text × Text)) :
    let y := LReal.ofInt (100 + 100 * above)
    addRungs d above (rung :: rest) =
      addRungs (d.addChain [(⟨100, y⟩, .contact rung.1 false (some false))]
        (⟨400, y⟩, .coil rung.2 false (some true))) (above + 1) rest := rfl

theorem addRungs_wires {d : Draft Position} (wires : d.WiresContacts) (above : Nat)
    (rungs : List (Text × Text)) : (addRungs d above rungs).WiresContacts := by
  induction rungs generalizing d above with
  | nil => exact wires
  | cons rung rest ih =>
    rw [addRungs_cons]
    refine ih (wires.addChain ?series ?stop) (above + 1)
    case series =>
      intro content mem
      rw [List.mem_singleton.mp mem]
      rfl
    case stop => nofun

/-- What is drawn from patterns, and a ladder of tags, are paths side by side, each of them contacts
    and a last node that is none.  Unless a known program is recognised, the nodes of a pattern
    diagram stand in rows of three. -/
theorem patternDiagram_ladder_isForwardPaths :
    (∀ source, (patternDiagram source).IsForwardPaths ∧
      (knownProgram? source = none →
        ∀ (i : Nat) (n : Node Position), (patternDiagram source).nodes[i]? = some n →
          n.place = ⟨LReal.ofInt (100 + 250 * (i % 3)), LReal.ofInt (100 + 150 * (i / 3))⟩)) ∧
    ∀ tags : List Text, (ladder (pairs tags)).IsForwardPaths := by
  refine ⟨fun source => ⟨(patternDiagram_wires source).isForwardPaths, ?_⟩, fun tags =>
    (addRungs_wires Draft.wiresContacts_empty 0 (pairs tags)).diagram.isForwardPaths⟩
  intro unknown i n here
  rw [patternDiagram_of_unknown unknown] at here
  simp only [Grid.arrange, List.getElem?_mapIdx] at here
  obtain ⟨_, -, rfl⟩ := Option.map_eq_some_iff.mp here
  exact Grid.position_standard i

/-- A timer, a rung of two contacts, whose coil begins the second row, and a block. -/
theorem patternDiagram_isForwardPaths_rows :
    let source := "T1(IN := Go, PT := T#5s);\nMotor := A AND NOT B;\nLamp(I := Motor);".toList
    knownProgram? source = none ∧ (patternDiagram source).edges.length = 2 ∧
      (patternDiagram source).IsForwardPaths ∧
      ∃ n, (patternDiagram source).nodes[3]? = some n ∧ n.symbol.kind = .coil ∧
        n.place = ⟨100, 250⟩ := by
  intro source
  have unknown : knownProgram? source = none := by decide
  have coil : (patternDiagram source).nodes[3]?.map (·.symbol.kind) = some .coil := by
    decide
  obtain ⟨n, here, kind⟩ := Option.map_eq_some_iff.mp coil
  obtain ⟨paths, places⟩ := patternDiagram_ladder_isForwardPaths.1 source
  exact ⟨unknown, by decide, paths, n, here, kind, places unknown 3 n here⟩

end StructuredText
