import StructuredText.Diagram.Step
import StructuredText.Proofs.Diagram.Wiring

/- A diagram that is built step by step.  A step that comes to nothing may use up a number, so there
   may be gaps between the numbers of nodes and of edges, but they only go up, and each edge joins
   two nodes that are there. -/
namespace StructuredText

theorem edgeId_injective {n k : Nat} (same : edgeId n = edgeId k) : n = k :=
  naturalText_injective (List.append_cancel_left same)

/-- The identifiers have numbers that only go up, none of them beyond the last one given out. -/
def AreNumbered (write : Nat → Text) (last : Nat) (ids : List Text) : Prop :=
  ∃ numbers : List Nat, ids = numbers.map write ∧ numbers.Pairwise (· < ·) ∧ ∀ n ∈ numbers, n ≤ last

section Numbers
variable {write : Nat → Text} {last : Nat} {ids : List Text}

theorem AreNumbered.nil : AreNumbered write last [] := ⟨[], rfl, .nil, nofun⟩

theorem AreNumbered.skip (numbered : AreNumbered write last ids) :
    AreNumbered write (last + 1) ids := by
  obtain ⟨numbers, rfl, increasing, bound⟩ := numbered
  exact ⟨numbers, rfl, increasing, fun n mem => Nat.le_succ_of_le (bound n mem)⟩

theorem AreNumbered.concat (numbered : AreNumbered write last ids) :
    AreNumbered write (last + 1) (ids ++ [write (last + 1)]) := by
  obtain ⟨numbers, rfl, increasing, bound⟩ := numbered
  refine ⟨numbers ++ [last + 1], ?_, ?_, ?_⟩
  · rw [List.map_append, List.map_singleton]
  · refine List.pairwise_append.mpr ⟨increasing, List.pairwise_singleton _ _, ?_⟩
    intro n mem next isNext
    obtain rfl := List.mem_singleton.mp isNext
    exact Nat.lt_succ_of_le (bound n mem)
  · intro n mem
    rcases List.mem_append.mp mem with old | new
    · exact Nat.le_succ_of_le (bound n old)
    · exact (List.mem_singleton.mp new).le

theorem AreNumbered.nodup (numbered : AreNumbered write last ids)
    (injective : ∀ {n k}, write n = write k → n = k) : ids.Nodup := by
  obtain ⟨numbers, rfl, increasing, -⟩ := numbered
  exact List.pairwise_map.mpr (increasing.imp fun less same => Nat.ne_of_lt less (injective same))

end Numbers

section Draft
variable {Place : Type} {d : Draft Place}

structure Draft.IsNumbered (d : Draft Place) : Prop where
  nodes : AreNumbered nodeId d.nodesNumbered (d.nodes.map (·.id))
  edges : AreNumbered edgeId d.edgesNumbered (d.edges.map (·.id))
  ends : ∀ edge ∈ d.edges,
    edge.source ∈ d.nodes.map (·.id) ∧ edge.target ∈ d.nodes.map (·.id)

theorem Draft.isNumbered_empty : (Draft.empty : Draft Place).IsNumbered := ⟨.nil, .nil, nofun⟩

namespace Draft.IsNumbered

theorem numberNode (numbered : d.IsNumbered) : d.numberNode.IsNumbered :=
  ⟨numbered.nodes.skip, numbered.edges, numbered.ends⟩

theorem numberEdge (numbered : d.IsNumbered) : d.numberEdge.IsNumbered :=
  ⟨numbered.nodes, numbered.edges.skip, numbered.ends⟩

theorem add (numbered : d.IsNumbered) (place : Place) (symbol : Symbol) :
    (d.add place symbol).IsNumbered := by
  have ids : (d.add place symbol).nodes.map (·.id) =
      d.nodes.map (·.id) ++ [nodeId (d.nodesNumbered + 1)] := List.map_append
  refine ⟨?_, numbered.edges, ?_⟩
  · rw [ids]
    exact numbered.nodes.concat
  · intro edge mem
    obtain ⟨source, target⟩ := numbered.ends edge mem
    rw [ids]
    exact ⟨List.mem_append_left _ source, List.mem_append_left _ target⟩

theorem connect (numbered : d.IsNumbered) (source target : Nat) :
    (d.connect source target).IsNumbered := by
  rw [Draft.connect, Draft.connect?]
  split
  case h_2 => exact numbered
  case h_1 s t here there =>
    have ids : (d.edges ++ [d.wire s t]).map (·.id) =
        d.edges.map (·.id) ++ [edgeId (d.edgesNumbered + 1)] := List.map_append
    refine ⟨numbered.nodes, ?_, ?_⟩
    · simp only [Option.getD_some, ids]
      exact numbered.edges.concat
    · intro edge mem
      rcases List.mem_append.mp mem with old | new
      · exact numbered.ends edge old
      · obtain rfl := List.mem_singleton.mp new
        exact ⟨List.mem_map_of_mem (List.mem_of_getElem? here),
          List.mem_map_of_mem (List.mem_of_getElem? there)⟩

theorem moved (numbered : d.IsNumbered) {nodes : List (Node Place)}
    (ids : nodes.map (·.id) = d.nodes.map (·.id)) : { d with nodes }.IsNumbered := by
  obtain ⟨nodeIds, edgeIds, ends⟩ := numbered
  rw [← ids] at nodeIds
  refine ⟨nodeIds, edgeIds, ?_⟩
  simpa only [ids] using ends

end Draft.IsNumbered
end Draft

theorem Grid.ids_arrange? {Place : Type} {grid : Grid} {nodes : List (Node Place)}
    {arranged : List (Node Position)} (fits : grid.arrange? nodes = some arranged) :
    arranged.map (·.id) = nodes.map (·.id) := by
  obtain rfl := Option.some.inj (Option.ite_none_left_eq_some.mp fits).2
  exact grid.map_arrange nodes fun id _ => id

def StepAnswer.isFailure : StepAnswer → Bool
  | .unfit | .noSuchNode | .emptyRows => true
  | _ => false

section Steps
variable {d : Draft Position}

theorem Step.run_isNumbered (numbered : d.IsNumbered) (step : Step) :
    (step.run d).2.IsNumbered := by
  cases step with
  | add content =>
    cases content with
    | none => exact numbered.numberNode
    | some content => exact numbered.add content.1 content.2
  | connect source target =>
    rw [Step.run]
    split
    · exact numbered.connect _ _
    · exact numbered
  | takeNodeId => exact numbered.numberNode
  | takeEdgeId => exact numbered.numberEdge
  | arrange grid =>
    rw [Step.run]
    split
    · exact numbered
    · next fits => exact numbered.moved (Grid.ids_arrange? fits)
  | render => exact numbered

theorem Step.runAll_isNumbered (numbered : d.IsNumbered) (steps : List Step) :
    (Step.runAll d steps).2.IsNumbered := by
  induction steps generalizing d with
  | nil => exact numbered
  | cons step rest ih => exact ih (run_isNumbered numbered step)

theorem Step.run_of_isFailure {step : Step} (failed : (step.run d).1.isFailure) :
    (step.run d).2.nodes = d.nodes ∧ (step.run d).2.edges = d.edges := by
  cases step with
  | add content =>
    cases content with
    | none => exact ⟨rfl, rfl⟩
    | some content => contradiction
  | connect source target =>
    rw [Step.run] at failed ⊢
    split at failed
    · contradiction
    · exact ⟨rfl, rfl⟩
  | takeNodeId => contradiction
  | takeEdgeId => contradiction
  | arrange grid =>
    rw [Step.run] at failed ⊢
    split at failed
    · exact ⟨rfl, rfl⟩
    · contradiction
  | render => contradiction

end Steps

/-- Whatever steps have been taken, some of which may have failed, the numbers of nodes and edges
    only go up, so that no two share an identifier, each edge joins two of the nodes, and a further
    step that fails leaves nodes and edges as they are. -/
theorem Step.runAll_numbered {steps : List Step} {answers : List StepAnswer} {d : Draft Position}
    (reached : Step.runAll Draft.empty steps = (answers, d)) :
    d.IsNumbered ∧ (d.nodes.map (·.id)).Nodup ∧ (d.edges.map (·.id)).Nodup ∧
      ∀ step : Step, (step.run d).1.isFailure →
        (step.run d).2.nodes = d.nodes ∧ (step.run d).2.edges = d.edges := by
  have numbered : d.IsNumbered := by
    have run := Step.runAll_isNumbered Draft.isNumbered_empty steps
    rwa [reached] at run
  exact ⟨numbered, numbered.nodes.nodup nodeId_injective, numbered.edges.nodup edgeId_injective,
    fun _ failed => Step.run_of_isFailure failed⟩

/-- A contact and a coil with a failed addition between them, then two wires with a failed one and
    an unused number between them. -/
def gappedSteps : List Step :=
  [.add (some (⟨100, 100⟩, .contact "a".toList false (some false))), .add none,
    .add (some (⟨400, 100⟩, .coil "x".toList false (some true))), .connect 0 1, .connect 0 7,
    .takeEdgeId, .connect (-2) (-1), .arrange Grid.standard]

theorem Step.runAll_numbered_gappedSteps :
    let d := (Step.runAll Draft.empty gappedSteps).2
    d.nodes.map (·.id) = ["node-1".toList, "node-3".toList] ∧
      d.edges.map (·.id) = ["edge-1".toList, "edge-3".toList] ∧ (d.nodes.map (·.id)).Nodup ∧
      ((Step.connect 0 7).run d).1.isFailure ∧ ((Step.connect 0 7).run d).2.edges = d.edges := by
  obtain ⟨-, nodup, -, unchanged⟩ :=
    Step.runAll_numbered (Prod.eta (Step.runAll Draft.empty gappedSteps)).symm
  have fails : ((Step.connect 0 7).run (Step.runAll Draft.empty gappedSteps).2).1.isFailure := by
    decide
  exact ⟨by decide, by decide, nodup, fails, (unchanged _ fails).2⟩

end StructuredText
