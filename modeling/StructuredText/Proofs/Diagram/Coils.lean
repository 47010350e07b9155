import StructuredText.Proofs.Diagram.Rungs
import StructuredText.Proofs.Diagram.Series

/- The coils of a diagram are those of the variables that are assigned, and each assignment that is
   drawn drives its own.  What is assigned is collected from both branches of a conditional, drawn
   or not; an assignment in a loop is neither collected nor drawn. -/
namespace StructuredText
open Drawing

def Symbol.coilName? : Symbol → Option Text
  | .coil label .. => some label
  | _ => none

theorem Symbol.coilName?_closed (symbol : Symbol) : symbol.closed.coilName? = symbol.coilName? := by
  cases symbol <;> rfl

theorem Symbol.coilName?_of_kind {symbol : Symbol} (other : symbol.kind ≠ .coil) :
    symbol.coilName? = none := by
  cases symbol <;> first | rfl | exact absurd rfl other

section Diagram
variable {Place Place' : Type}

def Diagram.coilLabels (d : Diagram Place) : List Text := d.nodes.filterMap (·.symbol.coilName?)

def Diagram.coil? (d : Diagram Place) (name : Text) : Option Nat :=
  d.nodes.findIdx? (·.symbol.coilName? = some name)

theorem Diagram.coilLabels_mapPlaces (f : Place → Place') (d : Diagram Place) :
    (d.mapPlaces f).coilLabels = d.coilLabels := by
  rw [coilLabels, mapPlaces, List.filterMap_map]
  rfl

theorem Diagram.coil?_mapPlaces (f : Place → Place') (d : Diagram Place) (name : Text) :
    (d.mapPlaces f).coil? name = d.coil? name := by
  rw [coil?, mapPlaces, List.findIdx?_map]
  rfl

theorem Diagram.exists_coil? {d : Diagram Place} {name : Text} (mem : name ∈ d.coilLabels) :
    ∃ place, d.coil? name = some place := by
  obtain ⟨n, inside, isCoil⟩ := List.mem_filterMap.mp mem
  rw [← Option.isSome_iff_exists, coil?, List.findIdx?_isSome, List.any_eq_true]
  exact ⟨n, inside, decide_eq_true isCoil⟩

theorem Diagram.of_coil? {d : Diagram Place} {name : Text} {place : Nat}
    (found : d.coil? name = some place) :
    ∃ n, d.nodes[place]? = some n ∧ n.symbol.coilName? = some name := by
  obtain ⟨inside, isCoil, -⟩ := List.findIdx?_eq_some_iff_getElem.mp found
  exact ⟨_, List.getElem?_eq_getElem inside, of_decide_eq_true isCoil⟩

end Diagram

section Assigned

/-- The statement assigns the variable inside so many conditionals.  Loops are looked into, or
    not. -/
inductive Statement.Assigns (inLoops : Bool) (name : Text) : (depth : Nat) → Statement → Prop
  | here {value : Expression} : Assigns inLoops name 0 (.assignment name value)
  | branch {depth : Nat} {condition : Option Expression}
      {thenBranch elseBranch : Option (List Statement)} {s : Statement}
      (mem : s ∈ thenBranch.getD [] ++ elseBranch.getD []) (inner : Assigns inLoops name depth s) :
      Assigns inLoops name (depth + 1) (.conditional condition thenBranch elseBranch)
  | forLoop {depth : Nat} {body : List Statement} {s : Statement} (looked : inLoops = true)
      (mem : s ∈ body) (inner : Assigns inLoops name depth s) :
      Assigns inLoops name depth (.forLoop body)
  | whileLoop {depth : Nat} {condition : Option Expression} {body : List Statement} {s : Statement}
      (looked : inLoops = true) (mem : s ∈ body) (inner : Assigns inLoops name depth s) :
      Assigns inLoops name depth (.whileLoop condition body)

theorem mem_assignedTargets {levels : Nat} {s : Statement} {name : Text} :
    name ∈ assignedTargets levels s ↔ ∃ depth < levels, s.Assigns false name depth := by
  induction levels generalizing s with
  | zero => simp [assignedTargets]
  | succ levels ih =>
    cases s with
    | assignment target value =>
      constructor
      · intro mem
        obtain rfl := List.mem_singleton.mp mem
        exact ⟨0, Nat.succ_pos _, .here⟩
      · rintro ⟨_, -, ⟨⟩⟩
        exact List.mem_singleton_self _
    | conditional condition thenBranch elseBranch =>
      rw [assignedTargets, ← List.flatMap_append, List.mem_flatMap]
      constructor
      · rintro ⟨s, mem, assigned⟩
        obtain ⟨depth, low, inner⟩ := ih.mp assigned
        exact ⟨depth + 1, Nat.succ_lt_succ low, .branch mem inner⟩
      · rintro ⟨_, low, ⟨⟩⟩
        case branch depth s inner mem =>
          exact ⟨s, mem, ih.mpr ⟨depth, Nat.lt_of_succ_lt_succ low, inner⟩⟩
    | _ =>
      constructor
      · intro mem
        exact absurd mem List.not_mem_nil
      · intro found
        obtain ⟨_, -, assigned⟩ := found
        cases assigned <;> contradiction

def Pou.coilCandidates (pou : Pou) : List Text :=
  (pou.declared.filter fun v => v.role = .output || v.role = .internal).map (·.name)

theorem Pou.coilNames_eq (pou : Pou) : pou.coilNames = (pou.coilCandidates.filter
    (pou.statements.flatMap (assignedTargets drawingLimit)).contains).eraseDups := by
  rw [coilNames, coilCandidates, List.filter_map, List.filter_filter]
  simp only [Function.comp_apply, Bool.and_comm]

theorem Pou.mem_coilNames {pou : Pou} {name : Text} : name ∈ pou.coilNames ↔
    name ∈ pou.coilCandidates ∧
      name ∈ pou.statements.flatMap (assignedTargets drawingLimit) := by
  rw [coilNames_eq, List.mem_eraseDups, List.mem_filter, List.contains_iff_mem]

/-- What is kept of a list, each name once, stands in the order in which the names first occur. -/
theorem pairwise_eraseDups_filter (p : Text → Bool) (names : List Text) :
    (names.filter p).eraseDups.Pairwise fun a b => names.idxOf a < names.idxOf b := by
  induction names generalizing p with
  | nil => exact .nil
  | cons first rest ih =>
    have shift {names : List Text} (other : ∀ a ∈ names, a ≠ first)
        (order : names.Pairwise fun a b => rest.idxOf a < rest.idxOf b) :
        names.Pairwise fun a b => (first :: rest).idxOf a < (first :: rest).idxOf b := by
      refine order.imp_of_mem fun {a b} memA memB less => ?_
      rw [List.idxOf_cons_ne _ (other a memA).symm, List.idxOf_cons_ne _ (other b memB).symm]
      exact Nat.succ_lt_succ less
    cases kept : p first with
    | true =>
      have others : (rest.filter p).filter (fun b => !b == first) =
          rest.filter fun b => !b == first && p b := List.filter_filter
      rw [List.filter_cons_of_pos kept, List.eraseDups_cons, others]
      have different : ∀ b ∈ (rest.filter fun b => !b == first && p b).eraseDups, b ≠ first := by
        intro b mem
        have := (List.mem_filter.mp (List.mem_eraseDups.mp mem)).2
        simp_all
      refine .cons (fun b mem => ?_) (shift different (ih _))
      rw [List.idxOf_cons_self, List.idxOf_cons_ne _ (different b mem).symm]
      exact Nat.succ_pos _
    | false =>
      rw [List.filter_cons_of_neg (by simp [kept])]
      refine shift (fun b mem same => ?_) (ih p)
      have := (List.mem_filter.mp (List.mem_eraseDups.mp mem)).2
      rw [same, kept] at this
      contradiction

end Assigned

section Drawn

theorem Expression.coil_notMem_origins (inputs : List (Text × Nat)) (levels : Nat)
    (e : Expression) : Origin.coil ∉ e.origins inputs levels := by
  induction levels generalizing e with
  | zero => exact List.not_mem_nil
  | succ levels ih =>
    cases e with
    | literal value => cases value <;> simp [origins]
    | «variable» name =>
      rw [origins]
      split <;> simp
    | negation operand => exact ih operand
    | connective op left right => exact List.not_mem_append (ih left) (ih right)
    | comparison op left right => simp [origins]
    | call name arguments => simp [origins]

theorem Part.coil_notMem_origins (surface : Surface) (part : Part) :
    Origin.coil ∉ part.origins surface := by
  cases part with
  | assignment levels target value => exact value.coil_notMem_origins _ levels
  | condition levels e => exact e.coil_notMem_origins _ levels
  | call target arguments =>
    rw [origins]
    split <;> simp
  | cutOff => exact List.not_mem_nil

variable (pou : Pou) (drawsElse : Bool)

theorem surface_coilNames : (pou.surface drawsElse).2.draft.nodes.map (·.symbol.coilName?) =
    List.replicate (1 + pou.inputs.length) none ++ pou.coilNames.map some := by
  have contacts (names : List Text) : (inputNodes names).map (·.2.coilName?) =
      List.replicate names.length none := by
    apply List.ext_getElem <;> simp [inputNodes, Symbol.coilName?]
  have coils (names : List Text) : (coilNodes names).map (·.2.coilName?) = names.map some := by
    apply List.ext_getElem <;> simp [coilNodes, Symbol.coilName?]
  have all := (Draft.empty : Draft Spot).map_addAll ((.unit, pou.blockSymbol) ::
    inputNodes (pou.inputs.map (·.name)) ++ coilNodes pou.coilNames) (·.2.coilName?)
  refine all.trans ?_
  rw [List.cons_append, List.map_cons, List.map_append, contacts, coils, List.length_map,
    Nat.add_comm 1, List.replicate_succ]
  rfl

theorem kind_ne_coil {origin : Origin} (other : origin ≠ .coil) : origin.kind ≠ .coil := by
  cases origin <;> first | exact absurd rfl other | exact nofun

theorem coilName?_of_added {old added : List (Node Spot)}
    (nodes : (pou.draw drawsElse).draft.nodes = old ++ added)
    (interface : old.length = pou.interfaceOrigins.length) :
    ∀ n ∈ added, n.symbol.coilName? = none := by
  have kinds : added.map (·.symbol.kind) = ((pou.parts drawsElse).flatMap
      (Part.origins (pou.surface drawsElse).1)).map Origin.kind := by
    have all := (draw_wired pou drawsElse).wiring.kinds
    rw [Draft.diagram, nodes, Pou.origins, List.map_append, List.map_append] at all
    exact List.append_inj_right all (by rw [List.length_map, List.length_map, interface])
  intro n inside
  have drawn : n.symbol.kind ∈ added.map (·.symbol.kind) := List.mem_map_of_mem inside
  rw [kinds] at drawn
  obtain ⟨origin, among, same⟩ := List.mem_map.mp drawn
  obtain ⟨part, -, among⟩ := List.mem_flatMap.mp among
  refine Symbol.coilName?_of_kind (same ▸ kind_ne_coil ?_)
  rintro rfl
  exact part.coil_notMem_origins _ among

theorem draw_coilNames : ∃ later, (pou.draw drawsElse).draft.nodes.map (·.symbol.coilName?) =
    List.replicate (1 + pou.inputs.length) none ++ pou.coilNames.map some ++
      List.replicate later none := by
  have more := extends_drawParts (pou.surface drawsElse).1 (pou.parts drawsElse)
    (pou.surface drawsElse).2
  rw [← draw_eq_drawParts] at more
  obtain ⟨places, labels, grows⟩ := more
  obtain ⟨added, nodes⟩ := grows.nodes
  have old : (closeAt places (pou.surface drawsElse).2.draft.nodes).map (·.symbol.coilName?) =
      (pou.surface drawsElse).2.draft.nodes.map (·.symbol.coilName?) :=
    map_closeAt_of_invariant (fun n => n.symbol.coilName?_closed) _ _
  have none := coilName?_of_added pou drawsElse nodes
    ((length_closeAt ..).trans (surface_wired pou drawsElse).length_eq.symm)
  have new : added.map (·.symbol.coilName?) = List.replicate added.length .none :=
    List.eq_replicate_iff.mpr ⟨List.length_map _, List.forall_mem_map.mpr none⟩
  refine ⟨added.length, ?_⟩
  rw [← surface_coilNames, ← old, ← new, ← List.map_append]
  exact congrArg _ nodes

theorem draw_coilLabels : (pou.draw drawsElse).draft.diagram.coilLabels = pou.coilNames := by
  obtain ⟨later, names⟩ := draw_coilNames pou drawsElse
  have labels := congrArg (List.filterMap id) names
  rw [List.filterMap_map] at labels
  refine labels.trans ?_
  simp

theorem lookup_numberedFrom (start : Nat) (names : List Text) (name : Text) :
    (numberedFrom start names).lookup name = (names.findIdx? (· = name)).map (start + ·) := by
  induction names generalizing start with
  | nil => rfl
  | cons first rest ih =>
    have next : numberedFrom start (first :: rest) =
        (first, start) :: numberedFrom (start + 1) rest := by
      rw [numberedFrom, numberedFrom, List.mapIdx_cons]
      simp only [Nat.add_zero, Nat.add_right_comm start 1, Nat.add_assoc]
    rw [next, List.lookup_cons, ih, List.findIdx?_cons]
    by_cases same : first = name
    · simp [same]
    · have different : (name == first) = false := beq_false_of_ne (Ne.symm same)
      simp [same, different, Nat.add_right_comm, Nat.add_assoc, Function.comp_def]

theorem draw_coil? (name : Text) : (pou.draw drawsElse).draft.diagram.coil? name =
    (pou.surface drawsElse).1.coils.lookup name := by
  obtain ⟨later, names⟩ := draw_coilNames pou drawsElse
  have places := congrArg (List.findIdx? (· = some name)) names
  rw [List.findIdx?_map] at places
  refine places.trans (Eq.trans ?_ (lookup_numberedFrom _ _ _).symm)
  simp [List.findIdx?_append, List.findIdx?_replicate, List.findIdx?_map, Function.comp_def,
    Nat.add_comm]

end Drawn

section Driven
variable {pou : Pou} {drawsElse : Bool} {rung : Rung}

theorem Pou.DrawsRung.node_coilName? (draws : pou.DrawsRung drawsElse rung) {place : Nat}
    (mem : place ∈ rung.nodes (pou.surface drawsElse).1) {n : Node Spot}
    (here : (pou.draw drawsElse).draft.nodes[place]? = some n) : n.symbol.coilName? = none := by
  obtain ⟨more, wired⟩ := draws.wired
  have interface := (surface_hasInterface pou drawsElse).append more
  obtain ⟨wired', sources⟩ :=
    (drawExpression_drawing _ rung.levels rung.value rung.before).wired interface.inputs wired
  obtain ⟨origin, source, drawnFor⟩ := sources place mem
  obtain ⟨first, there⟩ : ∃ first, (drawExpression (pou.surface drawsElse).1.inputs rung.levels
      rung.value rung.before).2.draft.nodes[place]? = some first :=
    ⟨_, List.getElem?_eq_getElem (lt_of_areSources wired' sources place mem)⟩
  have none : first.symbol.coilName? = none := by
    refine Symbol.coilName?_of_kind (wired'.kind_eq there drawnFor ▸ kind_ne_coil ?_)
    rintro rfl
    exact absurd source (by decide)
  -- what is drawn behind the value leaves the node, or closes it
  obtain ⟨places, labels, grows⟩ := draws.extends_draw
  have nodes : (rung.after (pou.surface drawsElse).1).draft.nodes = _ := nodes_connect_draft _ _ _
  obtain ⟨n', last, same⟩ := grows.node_kept ((congrArg (·[place]?) nodes).trans there)
  obtain rfl := Option.some.inj (here.symm.trans last)
  rcases same with rfl | rfl
  · exact none
  · exact (Symbol.coilName?_closed _).trans none

theorem exists_of_forall₂ {α β : Type} {R : α → β → Prop} {xs : List α} {ys : List β}
    (all : List.Forall₂ R xs ys) {x : α} (mem : x ∈ xs) : ∃ y ∈ ys, R x y := by
  induction all with
  | nil => contradiction
  | @cons _ y _ _ related _ ih =>
    rcases List.mem_cons.mp mem with rfl | mem
    · exact ⟨y, List.mem_cons_self, related⟩
    · obtain ⟨y', mem', related'⟩ := ih mem
      exact ⟨y', List.mem_cons_of_mem _ mem', related'⟩

/-- The assignment wires the last node for its value to the coil, and wires nothing else to it. -/
def Rung.Drives {Place : Type} (rung : Rung) (surface : Surface) (d : Diagram Place) (coil : Nat) :
    Prop :=
  ∃ last inner edge later, (rung.nodes surface).getLast? = some last ∧
    (rung.after surface).draft.edges = rung.before.draft.edges ++ (inner ++ [edge]) ∧
    d.edges = (rung.after surface).draft.edges ++ later ∧
    d.Joins edge (last, coil) ∧ ∀ other ∈ inner, other.target ≠ edge.target

theorem Rung.Drives.mapPlaces {Place Place' : Type} (f : Place → Place') {d : Diagram Place}
    {surface : Surface} {coil : Nat} (drives : rung.Drives surface d coil) :
    rung.Drives surface (d.mapPlaces f) coil := by
  obtain ⟨last, inner, edge, later, isLast, added, edges, joins, others⟩ := drives
  exact ⟨last, inner, edge, later, isLast, added, edges, Diagram.joins_mapPlaces f joins,
    others⟩

theorem Pou.DrawsRung.drives (draws : pou.DrawsRung drawsElse rung)
    (drawn : rung.nodes (pou.surface drawsElse).1 ≠ []) {coil : Nat}
    (found : (pou.draw drawsElse).draft.diagram.coil? rung.target = some coil) :
    rung.Drives (pou.surface drawsElse).1 (pou.draw drawsElse).draft.diagram coil := by
  obtain ⟨added, later, links, edges, rest, linked, joins⟩ := draws.wires
  have isLast := List.getLast?_eq_getLast_of_ne_nil drawn
  rw [← draw_coil?, found, isLast, joint] at joins
  -- the last of the edges is that of the coil, the others are wires of the value
  have inner := List.forall₂_take_append _ _ _ joins
  have final := List.forall₂_drop_append _ _ _ joins
  obtain ⟨edge, behind, joined, nothing, single⟩ := List.forall₂_cons_right_iff.mp final
  obtain rfl := List.forall₂_nil_right_iff.mp nothing
  have split := List.take_append_drop links.length added
  rw [single] at split
  refine ⟨_, added.take links.length, edge, later, isLast, ?_, rest, joined, ?_⟩
  · rw [split, edges]
  · intro other mem same
    obtain ⟨link, among, joins⟩ := exists_of_forall₂ inner mem
    have sameTarget := joined.target_id
    rw [← same] at sameTarget
    have place : link.2 = coil :=
      (draw_wired pou drawsElse).wiring.place_unique joins.target_id sameTarget
    obtain ⟨n, here, isCoil⟩ := Diagram.of_coil? found
    have noCoil := draws.node_coilName? (linked.within link among).2 (place ▸ here)
    rw [noCoil] at isCoil
    contradiction

end Driven

/-- The coils are those of the outputs and internal variables that some assignment inside fewer than
    `drawingLimit` conditionals has as its target, drawn or not, each once and in the order of the
    declarations.  An assignment that is drawn with a node wires its last one to the coil of its
    target, and where else branches are drawn, there is no coil without an assignment that is
    drawn. -/
theorem Layout.diagram?_coils (layout : Layout) {pou : Pou} {d : Diagram Position}
    (drawn : layout.diagram? pou = some d) :
    d.coilLabels.Pairwise (fun a b => pou.coilCandidates.idxOf a < pou.coilCandidates.idxOf b) ∧
      (∀ name, name ∈ d.coilLabels ↔ name ∈ pou.coilCandidates ∧
        ∃ s ∈ pou.statements, ∃ depth < drawingLimit, s.Assigns false name depth) ∧
      (∀ rung, pou.DrawsRung layout.drawsElse rung → rung.target ∈ pou.coilCandidates →
        rung.nodes (pou.surface layout.drawsElse).1 ≠ [] →
        ∃ coil, d.coil? rung.target = some coil ∧
          rung.Drives (pou.surface layout.drawsElse).1 d coil) ∧
      (layout.drawsElse = true → ∀ name ∈ d.coilLabels,
        ∃ rung, pou.DrawsRung layout.drawsElse rung ∧ rung.target = name) := by
  obtain rfl := layout.of_diagram? drawn
  rw [Diagram.coilLabels_mapPlaces, draw_coilLabels]
  refine ⟨?_, ?_, ?_, ?_⟩
  · rw [pou.coilNames_eq]
    exact pairwise_eraseDups_filter _ _
  · intro name
    rw [Pou.mem_coilNames, List.mem_flatMap]
    simp only [mem_assignedTargets]
  · intro rung draws candidate nodes
    have label : rung.target ∈ (pou.draw layout.drawsElse).draft.diagram.coilLabels := by
      rw [draw_coilLabels]
      exact Pou.mem_coilNames.mpr ⟨candidate, Draws.target_mem draws⟩
    obtain ⟨coil, found⟩ := Diagram.exists_coil? label
    exact ⟨coil, (Diagram.coil?_mapPlaces _ _ _).trans found,
      (draws.drives nodes found).mapPlaces layout.position⟩
  · intro walks name mem
    exact exists_draws walks (Pou.mem_coilNames.mp mem).2 _

/-- The output `y` is only assigned in an else branch, and `x` is declared as an input too. -/
def branchingUnit : Pou :=
  ⟨.program, "Branching".toList, none,
    [⟨"x".toList, "BOOL".toList, .input, none⟩, ⟨"y".toList, "BOOL".toList, .output, none⟩,
      ⟨"x".toList, "BOOL".toList, .internal, none⟩, ⟨"y".toList, "BOOL".toList, .internal, none⟩,
      ⟨"z".toList, "BOOL".toList, .output, none⟩],
    [.conditional (some (.variable "a".toList))
      (some [.assignment "x".toList
        (.connective .or (.variable "a".toList) (.variable "x".toList))])
      (some [.assignment "y".toList (.variable "a".toList)])]⟩

def branchingRung : Rung :=
  let (surface, d) := branchingUnit.surface false
  ⟨198, "x".toList, .connective .or (.variable "a".toList) (.variable "x".toList),
    drawCondition surface 199 (some (.variable "a".toList)) d⟩

theorem diagram?_coils_branchingUnit : ∃ d, Layout.standard.diagram? branchingUnit = some d ∧
    d.coilLabels = ["y".toList, "x".toList] ∧
    (∃ s ∈ branchingUnit.statements, ∃ depth < drawingLimit, s.Assigns false "y".toList depth) ∧
    ∃ coil, d.coil? "x".toList = some coil ∧
      branchingRung.Drives (branchingUnit.surface false).1 d coil := by
  have drawn : branchingUnit.DrawsRung false branchingRung := .branch .assignment
  refine ⟨_, rfl, by decide, ?_, ?_⟩
  · exact (((Layout.standard.diagram?_coils rfl).2.1 _).mp (by decide)).2
  · exact (Layout.standard.diagram?_coils rfl).2.2.1 branchingRung drawn (by decide)
      (by decide)

def loopingUnit : Pou :=
  ⟨.program, "Looping".toList, none, [⟨"x".toList, "BOOL".toList, .output, none⟩],
    [.forLoop [.assignment "x".toList (.literal (.bool true))]]⟩

/-- An assignment in a loop gives its variable no coil. -/
theorem diagram?_coils_loopingUnit : ∃ d, Layout.standard.diagram? loopingUnit = some d ∧
    ¬ ∀ name, name ∈ d.coilLabels ↔ name ∈ loopingUnit.coilCandidates ∧
      ∃ s ∈ loopingUnit.statements, ∃ depth < drawingLimit, s.Assigns true name depth := by
  refine ⟨_, rfl, fun all => ?_⟩
  have assigned : "x".toList ∈ loopingUnit.coilCandidates ∧
      ∃ s ∈ loopingUnit.statements, ∃ depth < drawingLimit, s.Assigns true "x".toList depth :=
    ⟨by decide, _, List.mem_cons_self, 0, by decide,
      .forLoop rfl List.mem_cons_self .here⟩
  exact absurd ((all _).mpr assigned) (by decide)

end StructuredText
