import StructuredText.Proofs.Diagram.Growth

/- A further statement leaves what is drawn for the earlier ones as it is, but for the contacts of
   the inputs that it negates. -/
namespace StructuredText
open Drawing

def Pou.append (pou : Pou) (s : Statement) : Pou := { pou with statements := pou.statements ++ [s] }

def Pou.Assigns (pou : Pou) (name : Text) : Prop :=
  name ∈ pou.statements.flatMap (assignedTargets drawingLimit)

/-- Every output or internal variable that `s` assigns is assigned in the unit already. -/
def Pou.KnowsTargets (pou : Pou) (s : Statement) : Prop :=
  ∀ v ∈ pou.declared, v.role = .output ∨ v.role = .internal →
    v.name ∈ assignedTargets drawingLimit s → pou.Assigns v.name

instance (pou : Pou) (name : Text) : Decidable (pou.Assigns name) :=
  inferInstanceAs (Decidable (_ ∈ _))

instance (pou : Pou) (s : Statement) : Decidable (pou.KnowsTargets s) :=
  inferInstanceAs (Decidable (∀ v ∈ pou.declared, _))

theorem drawStatement_congr {a b : Surface} (inputs : a.inputs = b.inputs)
    (coils : a.coils = b.coils) (drawsElse : a.drawsElse = b.drawsElse)
    (timers : ∀ target, a.pou.timerType? target = b.pou.timerType? target) (levels : Nat)
    (s : Statement) (d : Drawing) : drawStatement a levels s d = drawStatement b levels s d := by
  induction levels generalizing s d with
  | zero => rw [drawStatement, drawStatement]
  | succ levels ih =>
    cases s with
    | assignment target value =>
      rw [drawStatement, drawStatement, drawAssignment, drawAssignment, inputs, coils]
    | conditional condition thenBranch elseBranch =>
      have branches :
          a.drawnBranches thenBranch elseBranch = b.drawnBranches thenBranch elseBranch := by
        rw [Surface.drawnBranches, Surface.drawnBranches, drawsElse]
      have start : drawCondition a levels condition d = drawCondition b levels condition d := by
        simp only [drawCondition, inputs]
      have same : drawStatement a levels = drawStatement b levels := by
        funext s d
        exact ih s d
      rw [drawStatement_conditional, drawStatement_conditional, branches, start, drawAll, drawAll,
        same]
    | call target name arguments =>
      rw [drawStatement, drawStatement, drawCall, drawCall, timers]
    | _ => rfl

section Append
variable {pou : Pou} {s : Statement} (known : pou.KnowsTargets s)
include known

theorem coilNames_append : (pou.append s).coilNames = pou.coilNames := by
  rw [Pou.coilNames, Pou.coilNames]
  congr 2
  apply List.filter_congr
  intro v mem
  cases role : (v.role = .output || v.role = .internal : Bool) with
  | false => rfl
  | true =>
    simp only [Bool.or_eq_true, decide_eq_true_eq] at role
    have same : (v.name ∈ (pou.append s).statements.flatMap (assignedTargets drawingLimit)) ↔
        v.name ∈ pou.statements.flatMap (assignedTargets drawingLimit) := by
      rw [Pou.append, List.flatMap_append, List.mem_append, List.flatMap_singleton]
      exact ⟨fun either => either.elim id (known v mem role), Or.inl⟩
    simp only [List.contains_eq_mem, same]

theorem draw_append (drawsElse : Bool) :
    (pou.append s).draw drawsElse =
      drawStatement (pou.surface drawsElse).1 drawingLimit s (pou.draw drawsElse) := by
  have coils := coilNames_append known
  have sameDrawing : ((pou.append s).surface drawsElse).2 = (pou.surface drawsElse).2 := by
    simp only [Pou.surface, coils]
    rfl
  have sameStatement : drawStatement ((pou.append s).surface drawsElse).1 drawingLimit =
      drawStatement (pou.surface drawsElse).1 drawingLimit := by
    funext s' d
    apply drawStatement_congr
    · rfl
    · simp only [Pou.surface, coils]
      rfl
    · rfl
    · intro target
      rfl
  simp only [Pou.draw, sameDrawing, sameStatement]
  exact List.foldl_concat ..

end Append

section Placement
variable (layout : Layout)

theorem map_closeAt {Place Place' : Type} (f : Place → Place') (places : List Nat)
    (nodes : List (Node Place)) :
    (closeAt places nodes).map (fun n => (⟨n.id, f n.place, n.symbol⟩ : Node Place')) =
      closeAt places (nodes.map fun n => ⟨n.id, f n.place, n.symbol⟩) := by
  apply List.ext_getElem?
  intro i
  simp only [List.getElem?_map, getElem?_closeAt, Option.map_map]
  congr 1
  funext n
  simp only [Function.comp]
  split <;> rfl

theorem Layout.diagram?_eq (pou : Pou) :
    layout.diagram? pou =
      if (pou.draw layout.drawsElse).isWritable then
        some ((pou.draw layout.drawsElse).draft.diagram.mapPlaces layout.position)
      else none := rfl

/-- The contacts of the inputs that a further statement negates, by their places among the
    nodes. -/
def Layout.negatedInputs (pou : Pou) (s : Statement) : List Nat :=
  s.negatedInputs (pou.surface layout.drawsElse).1 drawingLimit

def Layout.canLabel (pou : Pou) (s : Statement) : Bool :=
  (s.labels (pou.surface layout.drawsElse).1 drawingLimit).all (·.isWritable)

theorem of_mem_numberedFrom {start : Nat} {names : List Text} {name : Text} {node : Nat}
    (mem : (name, node) ∈ numberedFrom start names) :
    ∃ i, names[i]? = some name ∧ node = start + i := by
  obtain ⟨i, bound, eq⟩ := List.mem_mapIdx.mp mem
  obtain ⟨rfl, rfl⟩ := Prod.mk.inj eq
  exact ⟨i, List.getElem?_eq_getElem bound, rfl⟩

theorem mem_of_lookup {places : List (Text × Nat)} {name : Text} {node : Nat}
    (known : places.lookup name = some node) : (name, node) ∈ places := by
  obtain ⟨before, after, split, -⟩ := List.lookup_eq_some_iff.mp known
  rw [split]
  exact List.mem_append_right before List.mem_cons_self

theorem mem_of_surface_lookup {pou : Pou} {drawsElse : Bool} {name : Text} {node : Nat}
    (found : (pou.surface drawsElse).1.inputs.lookup name = some node) :
    ∃ i, (pou.inputs.map (·.name))[i]? = some name ∧ node = i + 1 := by
  obtain ⟨i, here, rfl⟩ := of_mem_numberedFrom (List.mem_reverse.mp (mem_of_lookup found))
  exact ⟨i, here, Nat.add_comm 1 i⟩

theorem surface_lookup {pou : Pou} {drawsElse : Bool} {name : Text} {node : Nat}
    (found : (pou.surface drawsElse).1.inputs.lookup name = some node) :
    0 < node ∧ node ≤ pou.inputs.length := by
  obtain ⟨i, here, rfl⟩ := mem_of_surface_lookup found
  have bound := (List.getElem?_eq_some_iff.mp here).1
  rw [List.length_map] at bound
  omega

theorem Layout.of_diagram? {pou : Pou} {d : Diagram Position}
    (drawn : layout.diagram? pou = some d) :
    d = (pou.draw layout.drawsElse).draft.diagram.mapPlaces layout.position := by
  rw [layout.diagram?_eq] at drawn
  exact (Option.some.inj (Option.ite_none_right_eq_some.mp drawn).2).symm

/-- The nodes of inputs are those behind the unit's own.  Apart from the contacts among them that a
    further statement negates, which close, all nodes and edges stay what they are, and those of
    the further statement come behind them. -/
theorem Layout.diagram?_append {pou : Pou} {s : Statement} (known : pou.KnowsTargets s) :
    (layout.diagram? (pou.append s)).isSome =
        ((layout.diagram? pou).isSome && layout.canLabel pou s) ∧
      (∀ node ∈ layout.negatedInputs pou s, 0 < node ∧ node ≤ pou.inputs.length) ∧
      ∀ d d', layout.diagram? pou = some d → layout.diagram? (pou.append s) = some d' →
        closeAt (layout.negatedInputs pou s) d.nodes <+: d'.nodes ∧ d.edges <+: d'.edges := by
  have grows := drawStatement_grows (pou.surface layout.drawsElse).1 drawingLimit s
    (pou.draw layout.drawsElse)
  rw [← draw_append known] at grows
  refine ⟨?_, ?_, ?_⟩
  · rw [layout.diagram?_eq, layout.diagram?_eq, grows.writable, Layout.canLabel]
    cases (pou.draw layout.drawsElse).isWritable <;> split <;> simp_all
  · intro node mem
    obtain ⟨name, found⟩ := Statement.mem_negatedInputs mem
    exact surface_lookup found
  · intro d d' drawn drawn'
    obtain rfl := layout.of_diagram? drawn
    obtain rfl := layout.of_diagram? drawn'
    obtain ⟨added, nodes⟩ := grows.nodes
    refine ⟨?_, grows.edges⟩
    simp only [Diagram.mapPlaces, Draft.diagram]
    rw [nodes, List.map_append, map_closeAt]
    exact List.prefix_append _ _

def follower : Pou :=
  ⟨.program, "Follower".toList, none,
    [⟨"a".toList, "BOOL".toList, .input, none⟩, ⟨"b".toList, "BOOL".toList, .input, none⟩,
      ⟨"x".toList, "BOOL".toList, .output, none⟩],
    [.assignment "x".toList (.variable "a".toList)]⟩

def inverter : Statement := .assignment "x".toList (.negation (.variable "a".toList))

theorem diagram?_append_follower :
    follower.KnowsTargets inverter ∧
      Layout.standard.negatedInputs follower inverter = [1] ∧
      ∀ d d', Layout.standard.diagram? follower = some d →
        Layout.standard.diagram? (follower.append inverter) = some d' →
        closeAt [1] d.nodes <+: d'.nodes := by
  have known : follower.KnowsTargets inverter := by decide
  have negated : Layout.standard.negatedInputs follower inverter = [1] := by decide
  refine ⟨known, negated, ?_⟩
  intro d d' drawn drawn'
  have kept := ((Layout.standard.diagram?_append known).2.2 d d' drawn drawn').1
  rwa [negated] at kept

/-- An input that an earlier rung uses does not keep its open contact when a later one negates
    it. -/
theorem not_isPrefix_append_follower :
    follower.KnowsTargets inverter ∧
      ∃ d d', Layout.standard.diagram? follower = some d ∧
        Layout.standard.diagram? (follower.append inverter) = some d' ∧
        ¬ d.nodes <+: d'.nodes := by
  refine ⟨by decide, _, _, rfl, rfl, ?_⟩
  decide +kernel

end Placement
end StructuredText
