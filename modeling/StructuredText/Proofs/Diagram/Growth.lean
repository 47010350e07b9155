import Mathlib.Data.List.Infix
import StructuredText.Proofs.Diagram.Parts

/- Drawing only adds to a drawing: new nodes and new edges come behind the old ones.  The one thing
   that changes among the old nodes is that the contact of an input closes when the input is
   negated, since all rungs share that contact. -/
namespace StructuredText
variable {Place : Type}

def Node.closed (n : Node Place) : Node Place := { n with symbol := n.symbol.closed }

def closeAt (places : List Nat) (nodes : List (Node Place)) : List (Node Place) :=
  nodes.mapIdx fun i n => if i ∈ places then n.closed else n

theorem Node.closed_closed (n : Node Place) : n.closed.closed = n.closed := by
  obtain ⟨id, place, symbol⟩ := n
  cases symbol <;> rfl

theorem getElem?_closeAt (places : List Nat) (nodes : List (Node Place)) (i : Nat) :
    (closeAt places nodes)[i]? = nodes[i]?.map fun n => if i ∈ places then n.closed else n := by
  rw [closeAt, List.getElem?_mapIdx]

theorem length_closeAt (places : List Nat) (nodes : List (Node Place)) :
    (closeAt places nodes).length = nodes.length := by
  rw [closeAt, List.length_mapIdx]

theorem closeAt_nil (nodes : List (Node Place)) : closeAt [] nodes = nodes := by
  apply List.ext_getElem?
  intro i
  rw [getElem?_closeAt]
  simp

theorem map_closeAt_of_invariant {α : Type} {f : Node Place → α} (same : ∀ n, f n.closed = f n)
    (places : List Nat) (nodes : List (Node Place)) : (closeAt places nodes).map f = nodes.map f := by
  apply List.ext_getElem?
  intro i
  rw [List.getElem?_map, List.getElem?_map, getElem?_closeAt, Option.map_map]
  congr 1
  funext n
  simp only [Function.comp]
  split
  · exact same n
  · rfl

theorem closeAt_closeAt (first second : List Nat) (nodes : List (Node Place)) :
    closeAt second (closeAt first nodes) = closeAt (first ++ second) nodes := by
  apply List.ext_getElem?
  intro i
  simp only [getElem?_closeAt, List.mem_append, Option.map_map]
  congr 1
  funext n
  by_cases inFirst : i ∈ first <;> by_cases inSecond : i ∈ second <;>
    simp [inFirst, inSecond, Node.closed_closed]

theorem closeAt_append (places : List Nat) (nodes added : List (Node Place)) :
    ∃ added', closeAt places (nodes ++ added) = closeAt places nodes ++ added' := by
  rw [closeAt, List.mapIdx_append]
  exact ⟨_, rfl⟩

theorem nodes_closeContact (d : Draft Place) (i : Nat) :
    (d.closeContact i).nodes = closeAt [i] d.nodes := by
  apply List.ext_getElem?
  intro j
  rw [getElem?_closeAt]
  simp only [Draft.closeContact, List.getElem?_modify, List.mem_singleton]
  by_cases same : i = j <;> simp [same, Node.closed, Ne.symm]

theorem Draft.nodes_addAll (d : Draft Place) (content : List (Place × Symbol)) :
    ∃ added, (d.addAll content).nodes = d.nodes ++ added ∧
      added.map (fun n => (n.place, n.symbol)) = content := by
  induction content generalizing d with
  | nil => exact ⟨[], (List.append_nil _).symm, rfl⟩
  | cons first rest ih =>
    obtain ⟨added, nodes, same⟩ := ih (d.add first.1 first.2)
    refine ⟨⟨nodeId (d.nodesNumbered + 1), first.1, first.2⟩ :: added, ?_, ?_⟩
    · exact nodes.trans (List.append_assoc ..)
    · rw [List.map_cons, same]

theorem Draft.map_addAll {α : Type} (d : Draft Place) (content : List (Place × Symbol))
    (f : Place × Symbol → α) : (d.addAll content).nodes.map (fun n => f (n.place, n.symbol)) =
      d.nodes.map (fun n => f (n.place, n.symbol)) ++ content.map f := by
  obtain ⟨added, nodes, rfl⟩ := d.nodes_addAll content
  rw [nodes, List.map_append, List.map_map]
  rfl

/-- What stands first for an expression. -/
inductive Lead
  | nothing
  | input (node : Nat)
  | fresh

def Lead.orElse : Lead → Lead → Lead
  | .nothing, second => second
  | first, _ => first

def Lead.places : Lead → List Nat
  | .input node => [node]
  | _ => []

def Expression.lead (inputs : List (Text × Nat)) : (levels : Nat) → Expression → Lead
  | 0, _ => .nothing
  | _ + 1, .variable name => (inputs.lookup name).elim .fresh .input
  | _ + 1, .literal (.bool _) => .fresh
  | _ + 1, .literal _ => .nothing
  | levels + 1, .negation operand => operand.lead inputs levels
  | levels + 1, .connective _ left right =>
    (left.lead inputs levels).orElse (right.lead inputs levels)
  | _ + 1, .comparison .. => .fresh
  | _ + 1, .call .. => .fresh

def Expression.negatedInputs (inputs : List (Text × Nat)) : (levels : Nat) → Expression → List Nat
  | 0, _ => []
  | levels + 1, .negation operand =>
    operand.negatedInputs inputs levels ++ (operand.lead inputs levels).places
  | levels + 1, .connective _ left right =>
    left.negatedInputs inputs levels ++ right.negatedInputs inputs levels
  | _ + 1, _ => []

def Expression.labels : (levels : Nat) → Expression → List Expression
  | 0, _ => []
  | levels + 1, .negation operand => operand.labels levels
  | levels + 1, .connective _ left right => left.labels levels ++ right.labels levels
  | _ + 1, .comparison op left right => [.comparison op left right]
  | _ + 1, .call _ arguments => arguments
  | _ + 1, _ => []

theorem Lead.mem_orElse {first second : Lead} {node : Nat}
    (mem : node ∈ (first.orElse second).places) : node ∈ first.places ∨ node ∈ second.places := by
  cases first with
  | nothing => exact Or.inr mem
  | input other => exact Or.inl mem
  | fresh => exact Or.inl mem

section Places
variable {inputs : List (Text × Nat)} {levels : Nat} {e : Expression} {node : Nat}

theorem mem_of_mem_lead (mem : node ∈ (e.lead inputs levels).places) :
    ∃ name, inputs.lookup name = some node := by
  induction levels generalizing e with
  | zero => contradiction
  | succ levels ih =>
    cases e with
    | literal value => cases value <;> contradiction
    | «variable» name =>
      rw [Expression.lead] at mem
      cases found : inputs.lookup name with
      | none =>
        rw [found] at mem
        contradiction
      | some other =>
        rw [found] at mem
        obtain rfl := List.mem_singleton.mp mem
        exact ⟨name, found⟩
    | negation operand => exact ih mem
    | connective op left right =>
      rcases Lead.mem_orElse mem with mem | mem
      · exact ih mem
      · exact ih mem
    | comparison op left right => contradiction
    | call name arguments => contradiction

theorem Expression.mem_negatedInputs (mem : node ∈ e.negatedInputs inputs levels) :
    ∃ name, inputs.lookup name = some node := by
  induction levels generalizing e with
  | zero => contradiction
  | succ levels ih =>
    cases e with
    | negation operand =>
      rcases List.mem_append.mp mem with mem | mem
      · exact ih mem
      · exact mem_of_mem_lead mem
    | connective op left right =>
      rcases List.mem_append.mp mem with mem | mem
      · exact ih mem
      · exact ih mem
    | _ => contradiction

end Places

namespace Drawing

/-- The second drawing comes from the first by closing contacts at some places and adding what
    has certain labels. -/
structure Grows (places : List Nat) (labels : List Expression) (d d' : Drawing) : Prop where
  nodes : ∃ added, d'.draft.nodes = closeAt places d.draft.nodes ++ added
  edges : d.draft.edges <+: d'.draft.edges
  writable : d'.isWritable = (d.isWritable && labels.all (·.isWritable))

theorem Grows.of_nodes {d d' : Drawing} (nodes : ∃ added, d'.draft.nodes = d.draft.nodes ++ added)
    (edges : d.draft.edges <+: d'.draft.edges) (writable : d'.isWritable = d.isWritable) :
    Grows [] [] d d' := by
  refine ⟨?_, edges, by simp [writable]⟩
  rwa [closeAt_nil]

theorem Grows.refl (d : Drawing) : Grows [] [] d d :=
  .of_nodes ⟨[], (List.append_nil _).symm⟩ (List.prefix_refl _) rfl

theorem Grows.trans {first second : List Nat} {labels more : List Expression} {d e f : Drawing}
    (left : Grows first labels d e) (right : Grows second more e f) :
    Grows (first ++ second) (labels ++ more) d f := by
  obtain ⟨added, old⟩ := left.nodes
  obtain ⟨added', new⟩ := right.nodes
  obtain ⟨kept, split⟩ := closeAt_append second (closeAt first d.draft.nodes) added
  refine ⟨⟨kept ++ added', ?_⟩, left.edges.trans right.edges, ?_⟩
  · rw [new, old, split, closeAt_closeAt, List.append_assoc]
  · rw [right.writable, left.writable, List.all_append, Bool.and_assoc]

theorem Grows.further {places : List Nat} {labels : List Expression} {d e f : Drawing}
    (grows : Grows places labels d e) (more : Grows [] [] e f) : Grows places labels d f := by
  simpa only [List.append_nil] using grows.trans more

variable (d : Drawing)

theorem grows_addLogic (symbol : Symbol) : Grows [] [] d (d.addLogic symbol).2 :=
  .of_nodes ⟨_, rfl⟩ (List.prefix_refl _) rfl

theorem grows_nextRung : Grows [] [] d d.nextRung :=
  .of_nodes ⟨[], (List.append_nil _).symm⟩ (List.prefix_refl _) rfl

theorem grows_remark (r : Remark) : Grows [] [] d (d.remark r) :=
  .of_nodes ⟨[], (List.append_nil _).symm⟩ (List.prefix_refl _) rfl

theorem grows_writing (es : List Expression) : Grows [] es d (d.writing es) := by
  refine ⟨⟨[], ?_⟩, List.prefix_refl _, rfl⟩
  rw [closeAt_nil, List.append_nil]
  rfl

theorem nodes_connect (draft : Draft Place) (source target : Nat) :
    (draft.connect source target).nodes = draft.nodes := by
  rw [Draft.connect, Draft.connect?]
  split <;> rfl

theorem nodes_connect_draft (source target : Option Nat) :
    (d.connect source target).draft.nodes = d.draft.nodes := by
  unfold Drawing.connect
  split
  · exact nodes_connect ..
  · rfl

theorem edges_connect (draft : Draft Place) (source target : Nat) :
    draft.edges <+: (draft.connect source target).edges := by
  rw [Draft.connect, Draft.connect?]
  split
  · exact List.prefix_append _ _
  · exact List.prefix_refl _

theorem grows_connect (source target : Option Nat) : Grows [] [] d (d.connect source target) := by
  unfold Drawing.connect
  split
  · exact .of_nodes ⟨[], by rw [nodes_connect, List.append_nil]⟩ (edges_connect ..) rfl
  · exact .refl d

theorem grows_closeFirst (nodes : List Nat) :
    Grows nodes.head?.toList [] d (d.closeFirst nodes) := by
  cases nodes with
  | nil => exact .refl d
  | cons i rest =>
    refine ⟨⟨[], ?_⟩, List.prefix_refl _, (Bool.and_true _).symm⟩
    rw [List.append_nil]
    exact nodes_closeContact d.draft i

end Drawing

open Drawing

def Lead.IsHead (d : Drawing) : Lead → Option Nat → Prop
  | .nothing, head => head = none
  | .input node, head => head = some node
  | .fresh, head => ∃ node ∈ head, d.draft.nodes.length ≤ node

theorem Drawing.Grows.length_le {places : List Nat} {labels : List Expression} {d d' : Drawing}
    (grows : Grows places labels d d') : d.draft.nodes.length ≤ d'.draft.nodes.length := by
  obtain ⟨added, eq⟩ := grows.nodes
  rw [eq, List.length_append, length_closeAt]
  omega

theorem Lead.IsHead.earlier {places : List Nat} {labels : List Expression} {d d' : Drawing}
    (grows : Grows places labels d d') {lead : Lead} {head : Option Nat}
    (isHead : lead.IsHead d' head) : lead.IsHead d head := by
  cases lead with
  | nothing => exact isHead
  | input node => exact isHead
  | fresh =>
    obtain ⟨node, mem, new⟩ := isHead
    exact ⟨node, mem, Nat.le_trans grows.length_le new⟩

/-- Closing what stands first closes the contact of an input, or nothing that was there before. -/
theorem closeAt_head {d : Drawing} {lead : Lead} {head : Option Nat} (isHead : lead.IsHead d head)
    {nodes : List (Node Place)} (old : nodes.length ≤ d.draft.nodes.length) :
    closeAt head.toList nodes = closeAt lead.places nodes := by
  cases lead with
  | nothing =>
    obtain rfl : head = none := isHead
    rfl
  | input node =>
    obtain rfl : head = some node := isHead
    rfl
  | fresh =>
    obtain ⟨node, mem, new⟩ := isHead
    obtain rfl := Option.mem_def.mp mem
    have untouched : closeAt [node] nodes = nodes := by
      apply List.ext_getElem?
      intro i
      rw [getElem?_closeAt]
      by_cases inside : i < nodes.length
      · have other : i ≠ node := by omega
        simp [other]
      · simp [List.getElem?_eq_none (Nat.le_of_not_lt inside)]
    exact untouched.trans (closeAt_nil nodes).symm

theorem Lead.IsHead.orElse {d : Drawing} {first second : Lead} {lefts rights : List Nat}
    (left : first.IsHead d lefts.head?) (right : second.IsHead d rights.head?) :
    (first.orElse second).IsHead d (lefts ++ rights).head? := by
  cases first with
  | nothing =>
    obtain rfl : lefts = [] := List.head?_eq_none_iff.mp left
    exact right
  | input node =>
    obtain ⟨rest, rfl⟩ := List.head?_eq_some_iff.mp left
    rfl
  | fresh =>
    obtain ⟨node, mem, new⟩ := left
    obtain ⟨rest, rfl⟩ := List.head?_eq_some_iff.mp mem
    exact ⟨node, rfl, new⟩

theorem Drawing.Grows.closeFirst {places : List Nat} {labels : List Expression} {d d' : Drawing}
    (grows : Grows places labels d d') {lead : Lead} {nodes : List Nat}
    (isHead : lead.IsHead d nodes.head?) :
    Grows (places ++ lead.places) labels d (d'.closeFirst nodes) := by
  have here := grows_closeFirst d' nodes
  obtain ⟨added, eq⟩ := grows.nodes
  obtain ⟨none, eq'⟩ := here.nodes
  obtain ⟨kept, split⟩ := closeAt_append nodes.head?.toList (closeAt places d.draft.nodes) added
  have old : (closeAt places d.draft.nodes).length ≤ d.draft.nodes.length :=
    Nat.le_of_eq (length_closeAt ..)
  refine ⟨⟨kept ++ none, ?_⟩, grows.edges.trans here.edges, ?_⟩
  · rw [eq', eq, split, closeAt_head isHead old, closeAt_closeAt, List.append_assoc]
  · rw [here.writable, grows.writable, List.all_nil, Bool.and_true]

section Leaf
variable {inputs : List (Text × Nat)} {e : Expression} {symbol : Symbol} (levels : Nat)

theorem Expression.labels_leaf (shape : e.symbol? = some symbol) :
    e.labels (levels + 1) = e.ownLabels := by
  cases e <;> first | rfl | contradiction

theorem Expression.negatedInputs_leaf (shape : e.symbol? = some symbol) :
    e.negatedInputs inputs (levels + 1) = [] := by
  cases e <;> first | rfl | contradiction

theorem Expression.lead_leaf (unknown : e.inputNode? inputs = none)
    (shape : e.symbol? = some symbol) : e.lead inputs (levels + 1) = .fresh := by
  cases e with
  | literal value => cases value <;> first | rfl | contradiction
  | «variable» name =>
    have unknown : inputs.lookup name = none := unknown
    rw [lead, unknown]
    rfl
  | negation operand => contradiction
  | connective op left right => contradiction
  | comparison op left right => rfl
  | call name arguments => rfl

theorem LeafDrawing.grows {d : Drawing} {drawn : List Nat × Drawing}
    (leaf : LeafDrawing inputs e d drawn) :
    Grows (e.negatedInputs inputs (levels + 1)) (e.labels (levels + 1)) d drawn.2 ∧
      (e.lead inputs (levels + 1)).IsHead d drawn.1.head? := by
  cases leaf with
  | @silent value d unseen =>
    refine ⟨.refl d, ?_⟩
    cases value with
    | bool b => exact absurd rfl (unseen b)
    | _ => rfl
  | known found =>
    refine ⟨.refl d, ?_⟩
    rw [Expression.lead, found]
    rfl
  | fresh unknown shape =>
    rw [Expression.negatedInputs_leaf levels shape, Expression.labels_leaf levels shape,
      Expression.lead_leaf levels unknown shape]
    exact ⟨(grows_writing d _).further (grows_addLogic _ _), _, rfl, Nat.le_refl _⟩

end Leaf

theorem ExpressionDrawing.grows {inputs : List (Text × Nat)} {levels : Nat} {e : Expression}
    {d : Drawing} {drawn : List Nat × Drawing} (drawing : ExpressionDrawing inputs levels e d drawn) :
    Grows (e.negatedInputs inputs levels) (e.labels levels) d drawn.2 ∧
      (e.lead inputs levels).IsHead d drawn.1.head? := by
  induction drawing with
  | cut => exact ⟨grows_remark _ _, rfl⟩
  | leaf leaf => exact leaf.grows _
  | negation _ ih =>
    obtain ⟨grows, isHead⟩ := ih
    exact ⟨grows.closeFirst isHead, isHead⟩
  | or _ _ first second =>
    exact ⟨first.1.trans second.1, first.2.orElse (second.2.earlier first.1)⟩
  | and _ _ first second =>
    exact ⟨(first.1.trans second.1).further (grows_connect _ _ _),
      first.2.orElse (second.2.earlier first.1)⟩

theorem drawExpression_grows (inputs : List (Text × Nat)) (levels : Nat) (e : Expression)
    (d : Drawing) : Grows (e.negatedInputs inputs levels) (e.labels levels) d
      (drawExpression inputs levels e d).2 :=
  (drawExpression_drawing inputs levels e d).grows.1

section Parts
variable (surface : Surface)

def Part.negatedInputs : Part → List Nat
  | .assignment levels _ e | .condition levels e => e.negatedInputs surface.inputs levels
  | _ => []

def Part.labels : Part → List Expression
  | .assignment levels _ e | .condition levels e => e.labels levels
  | .call target arguments => if (surface.pou.timerType? target).isSome then [] else arguments
  | .cutOff => []

def Statement.negatedInputs (levels : Nat) (s : Statement) : List Nat :=
  (s.parts surface levels).flatMap (Part.negatedInputs surface)

def Statement.labels (levels : Nat) (s : Statement) : List Expression :=
  (s.parts surface levels).flatMap (Part.labels surface)

variable {surface} in
theorem Statement.mem_negatedInputs {levels : Nat} {s : Statement} {node : Nat}
    (mem : node ∈ s.negatedInputs surface levels) :
    ∃ name, surface.inputs.lookup name = some node := by
  obtain ⟨part, -, mem⟩ := List.mem_flatMap.mp mem
  cases part with
  | assignment levels target value => exact Expression.mem_negatedInputs mem
  | condition levels e => exact Expression.mem_negatedInputs mem
  | _ => contradiction

theorem Part.grows (part : Part) (d : Drawing) :
    Grows (part.negatedInputs surface) (part.labels surface) d (part.draw surface d) := by
  have drawing := part.drawing surface d
  generalize part.draw surface d = d' at drawing ⊢
  cases drawing with
  | assignment inner =>
    exact (inner.grows.1.further (grows_connect _ _ _)).further (grows_nextRung _)
  | condition inner => exact inner.grows.1.further (grows_nextRung _)
  | timer typed =>
    rw [labels, typed]
    exact (grows_addLogic _ _).further (grows_nextRung _)
  | call untyped =>
    rw [labels, untyped]
    exact ((grows_writing _ _).further (grows_addLogic _ _)).further (grows_nextRung _)
  | cutOff => exact grows_remark _ _

theorem drawParts_grows (parts : List Part) (d : Drawing) :
    Grows (parts.flatMap (Part.negatedInputs surface)) (parts.flatMap (Part.labels surface)) d
      (drawParts surface parts d) := by
  induction parts generalizing d with
  | nil => exact .refl d
  | cons part rest ih => exact (part.grows surface d).trans (ih _)

theorem drawStatement_grows (levels : Nat) (s : Statement) (d : Drawing) :
    Grows (s.negatedInputs surface levels) (s.labels surface levels) d
      (drawStatement surface levels s d) := by
  rw [drawStatement_eq_drawParts]
  exact drawParts_grows surface _ d

end Parts
end StructuredText
