import Mathlib.Data.List.Defs
import StructuredText.Proofs.Diagram.Atoms

/- The wires that are drawn for an expression.  They lead from one of its nodes to another, and
   without an OR from each to the next. -/
namespace StructuredText
open Drawing

def Diagram.Joins {Place : Type} (d : Diagram Place) (edge : Edge) (link : Nat × Nat) : Prop :=
  ∃ source target, d.nodes[link.1]? = some source ∧ d.nodes[link.2]? = some target ∧
    edge.source = source.id ∧ edge.target = target.id

theorem Diagram.Joins.target_id {Place : Type} {d : Diagram Place} {edge : Edge} {link : Nat × Nat}
    (joins : d.Joins edge link) : (d.nodes.map (·.id))[link.2]? = some edge.target := by
  obtain ⟨-, target, -, there, -, isTarget⟩ := joins
  rw [List.getElem?_map, there, isTarget, Option.map_some]

theorem Diagram.joins_mapPlaces {Place Place' : Type} (f : Place → Place') {d : Diagram Place}
    {edge : Edge} {link : Nat × Nat} (joins : d.Joins edge link) :
    (d.mapPlaces f).Joins edge link := by
  obtain ⟨source, target, here, there, isSource, isTarget⟩ := joins
  exact ⟨_, _, Diagram.getElem?_mapPlaces f here, Diagram.getElem?_mapPlaces f there, isSource,
    isTarget⟩

def joint : Option Nat → Option Nat → List (Nat × Nat)
  | some source, some target => [(source, target)]
  | _, _ => []

theorem mem_joint {source target : Option Nat} {link : Nat × Nat}
    (mem : link ∈ joint source target) : source = some link.1 ∧ target = some link.2 := by
  unfold joint at mem
  split at mem
  · obtain rfl := List.mem_singleton.mp mem
    exact ⟨rfl, rfl⟩
  · contradiction

theorem consecutivePairs_append (first second : List Nat) :
    (first ++ second).consecutivePairs = first.consecutivePairs ++
      joint first.getLast? second.head? ++ second.consecutivePairs := by
  induction first with
  | nil => rfl
  | cons a rest ih =>
    cases rest with
    | nil => cases second <;> simp [List.consecutivePairs, joint]
    | cons b rest =>
      simp only [List.consecutivePairs, List.cons_append, List.tail_cons, List.zip_cons_cons,
        List.getLast?_cons_cons] at ih ⊢
      rw [ih]

namespace Drawing
variable {d e f : Drawing} {links more : List (Nat × Nat)} {places : List Nat}
  {labels : List Expression}

theorem Grows.joins (grows : Grows places labels d e) {edge : Edge} {link : Nat × Nat}
    (joins : d.draft.diagram.Joins edge link) : e.draft.diagram.Joins edge link := by
  obtain ⟨source, target, here, there, isSource, isTarget⟩ := joins
  obtain ⟨source', here', same⟩ := grows.node_kept here
  obtain ⟨target', there', same'⟩ := grows.node_kept there
  refine ⟨source', target', here', there', ?_, ?_⟩
  · rcases same with rfl | rfl <;> exact isSource
  · rcases same' with rfl | rfl <;> exact isTarget

def Wires (links : List (Nat × Nat)) (d e : Drawing) : Prop :=
  ∃ added, e.draft.edges = d.draft.edges ++ added ∧ List.Forall₂ e.draft.diagram.Joins added links

theorem Wires.of_edges (same : e.draft.edges = d.draft.edges) : Wires [] d e :=
  ⟨[], by rw [same, List.append_nil], .nil⟩

theorem Wires.trans (first : Wires links d e) (grows : Grows places labels e f)
    (second : Wires more e f) : Wires (links ++ more) d f := by
  obtain ⟨added, edges, joins⟩ := first
  obtain ⟨added', edges', joins'⟩ := second
  refine ⟨added ++ added', ?_, ?_⟩
  · rw [edges', edges, List.append_assoc]
  · exact List.rel_append (joins.imp fun _ _ joined => grows.joins joined) joins'

theorem Wires.further (wires : Wires links d e) (grows : Grows places labels e f)
    (same : f.draft.edges = e.draft.edges) : Wires links d f := by
  simpa only [List.append_nil] using wires.trans grows (.of_edges same)

theorem wires_connect {source target : Option Nat}
    (isSource : ∀ i ∈ source, i < d.draft.nodes.length)
    (isTarget : ∀ i ∈ target, i < d.draft.nodes.length) :
    Wires (joint source target) d (d.connect source target) := by
  unfold Drawing.connect
  split
  case h_1 s t =>
    have inside : s < d.draft.nodes.length := isSource s rfl
    have inside' : t < d.draft.nodes.length := isTarget t rfl
    have here := List.getElem?_eq_getElem inside
    have there := List.getElem?_eq_getElem inside'
    have nodes : (d.draft.connect s t).nodes = d.draft.nodes := nodes_connect ..
    refine ⟨[d.draft.wire d.draft.nodes[s] d.draft.nodes[t]], ?_, .cons ?_ .nil⟩
    · simp only [Draft.connect, Draft.connect?, here, there, Option.getD_some]
    · refine ⟨_, _, ?_, ?_, rfl, rfl⟩
      · exact (congrArg (·[s]?) nodes).trans here
      · exact (congrArg (·[t]?) nodes).trans there
  case h_2 none =>
    have nothing : joint source target = [] := by
      unfold joint
      split
      · exact absurd rfl (none _ _ rfl)
      · rfl
    rw [nothing]
    exact .of_edges rfl

theorem edges_closeFirst (nodes : List Nat) : (d.closeFirst nodes).draft.edges = d.draft.edges := by
  unfold Drawing.closeFirst
  split <;> rfl

end Drawing

section Expression
variable {inputs : List (Text × Nat)} {origins : List Origin} {d : Drawing}

/-- The links are between nodes of an expression, and without an OR from each to the next. -/
structure Expression.IsLinked (x : Expression) (nodes : List Nat) (links : List (Nat × Nat)) :
    Prop where
  within : ∀ link ∈ links, link.1 ∈ nodes ∧ link.2 ∈ nodes
  series : x.isOrFree = true → links.Perm nodes.consecutivePairs

section Connective
variable {left right : Expression} {lefts rights : List Nat} {links links' : List (Nat × Nat)}

theorem within_append (first : left.IsLinked lefts links) (second : right.IsLinked rights links') :
    ∀ link ∈ links ++ links', link.1 ∈ lefts ++ rights ∧ link.2 ∈ lefts ++ rights := by
  intro link mem
  rcases List.mem_append.mp mem with mem | mem
  · exact (first.within link mem).imp (List.mem_append_left _) (List.mem_append_left _)
  · exact (second.within link mem).imp (List.mem_append_right _) (List.mem_append_right _)

theorem Expression.IsLinked.or (first : left.IsLinked lefts links)
    (second : right.IsLinked rights links') :
    (Expression.connective .or left right).IsLinked (lefts ++ rights) (links ++ links') :=
  ⟨within_append first second, nofun⟩

theorem Expression.IsLinked.and (first : left.IsLinked lefts links)
    (second : right.IsLinked rights links') :
    (Expression.connective .and left right).IsLinked (lefts ++ rights)
      (links ++ links' ++ joint lefts.getLast? rights.head?) := by
  constructor
  · refine List.forall_mem_append.mpr ⟨within_append first second, fun link mem => ?_⟩
    obtain ⟨last, head⟩ := mem_joint mem
    exact ⟨List.mem_append_left _ (List.mem_of_getLast? last),
      List.mem_append_right _ (List.mem_of_head? head)⟩
  · intro orFree
    obtain ⟨free, free'⟩ : left.isOrFree = true ∧ right.isOrFree = true := by
      simpa [Expression.isOrFree] using orFree
    rw [consecutivePairs_append, List.append_assoc, List.append_assoc]
    exact (first.series free).append (((second.series free').append_right _).trans
      List.perm_append_comm)

end Connective

theorem lt_of_areSources {nodes : List Nat} (wired : d.draft.IsWired origins)
    (sources : AreSources origins nodes) : ∀ i ∈ nodes, i < d.draft.nodes.length := by
  intro i mem
  obtain ⟨origin, -, here⟩ := sources i mem
  rw [← wired.length_eq]
  exact (List.getElem?_eq_some_iff.mp here).1

theorem LeafDrawing.edges_eq {x : Expression} {drawn : List Nat × Drawing}
    (leaf : LeafDrawing inputs x d drawn) :
    drawn.2.draft.edges = d.draft.edges ∧ drawn.1.consecutivePairs = [] := by
  cases leaf <;> exact ⟨rfl, rfl⟩

theorem ExpressionDrawing.wires {levels : Nat} {x : Expression} {drawn : List Nat × Drawing}
    (drawing : ExpressionDrawing inputs levels x d drawn) (contacts : HasInputs inputs origins)
    (wired : d.draft.IsWired origins) :
    ∃ links, Wires links d drawn.2 ∧ x.IsLinked drawn.1 links := by
  induction drawing generalizing origins with
  | cut => exact ⟨[], .of_edges rfl, nofun, fun _ => .nil⟩
  | leaf leaf =>
    obtain ⟨edges, pairs⟩ := leaf.edges_eq
    refine ⟨[], .of_edges edges, nofun, fun _ => ?_⟩
    rw [pairs]
  | negation _ ih =>
    obtain ⟨links, wires, within, series⟩ := ih contacts wired
    exact ⟨links, wires.further (grows_closeFirst _ _) (edges_closeFirst _), within, series⟩
  | or before behind first second =>
    obtain ⟨links, wires, linked⟩ := first contacts wired
    obtain ⟨links', wires', linked'⟩ := second (contacts.append _) (before.wired contacts wired).1
    exact ⟨_, wires.trans behind.grows.1 wires', linked.or linked'⟩
  | and before behind first second =>
    obtain ⟨wiredLeft, lefts⟩ := before.wired contacts wired
    obtain ⟨wiredBoth, rights⟩ := behind.wired (contacts.append _) wiredLeft
    obtain ⟨links, wires, linked⟩ := first contacts wired
    obtain ⟨links', wires', linked'⟩ := second (contacts.append _) wiredLeft
    have isLeft := lt_of_areSources wiredBoth (lefts.append _)
    have isRight := lt_of_areSources wiredBoth rights
    refine ⟨_, (wires.trans behind.grows.1 wires').trans (grows_connect _ _ _)
      (wires_connect ?_ ?_), linked.and linked'⟩
    · exact fun i mem => isLeft i (List.mem_of_getLast? mem)
    · exact fun i mem => isRight i (List.mem_of_head? mem)

end Expression
end StructuredText
