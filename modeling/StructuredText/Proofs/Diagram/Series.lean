import StructuredText.Proofs.Diagram.Isolation

/- What the contacts in series conduct that are drawn for a tree of AND and NOT.  A NOT closes the
   first contact of its operand for good, which is its value only if that contact is the whole
   operand or closed already. -/
namespace StructuredText
open Drawing

def Expression.value (valuation : Text → Bool) : Expression → Bool
  | .variable name => valuation name
  | .negation operand => !operand.value valuation
  | .connective .and left right => left.value valuation && right.value valuation
  | .connective .or left right => left.value valuation || right.value valuation
  | _ => false

/-- A contact conducts what its label says, or the opposite when it is normally closed. -/
def Symbol.conducts (valuation : Text → Bool) : Symbol → Bool
  | .contact label _ normallyClosed => valuation label != (normallyClosed = some true)
  | _ => false

def Diagram.conducts {Place : Type} (d : Diagram Place) (valuation : Text → Bool)
    (places : List Nat) : Bool :=
  places.all fun i => d.nodes[i]?.any (·.symbol.conducts valuation)

theorem Diagram.conducts_mapPlaces {Place Place' : Type} (f : Place → Place')
    (d : Diagram Place) (valuation : Text → Bool) (places : List Nat) :
    (d.mapPlaces f).conducts valuation places = d.conducts valuation places := by
  simp [Diagram.conducts, Diagram.mapPlaces, Option.any_map]

/-- The nodes that are drawn for the value of the first assignment. -/
def Layout.seriesNodes (layout : Layout) (pou : Pou) (value : Expression) : List Nat :=
  let (surface, d) := pou.surface layout.drawsElse
  (drawExpression surface.inputs (drawingLimit - 1) value d).1

inductive IsAndNot : (levels : Nat) → Expression → Prop
  | reference {levels : Nat} {name : Text} : IsAndNot (levels + 1) (.variable name)
  | negation {levels : Nat} {operand : Expression} :
      IsAndNot levels operand → IsAndNot (levels + 1) (.negation operand)
  | both {levels : Nat} {left right : Expression} : IsAndNot levels left → IsAndNot levels right →
      IsAndNot (levels + 1) (.connective .and left right)

/-- Variables in series, each as it is or negated, apart from double negations of what begins with
    a negated one.  The truth value says whether the first variable is negated. -/
inductive IsSeries : (negated : Bool) → Expression → Prop
  | reference {name : Text} : IsSeries false (.variable name)
  | negated {name : Text} : IsSeries true (.negation (.variable name))
  | twice {e : Expression} : IsSeries true e → IsSeries true (.negation (.negation e))
  | both {first second : Bool} {left right : Expression} : IsSeries first left →
      IsSeries second right → IsSeries first (.connective .and left right)

def closeHead (contacts : List (Text × Bool)) : List (Text × Bool) :=
  contacts.modifyHead fun contact => (contact.1, true)

def Expression.contacts : Expression → List (Text × Bool)
  | .variable name => [(name, false)]
  | .negation operand => closeHead operand.contacts
  | .connective _ left right => left.contacts ++ right.contacts
  | _ => []

/-- What contacts in series conduct when those of shared variables are one and the same, closed as
    soon as it is closed anywhere. -/
def conductsSeries (isShared : Text → Bool) (valuation : Text → Bool)
    (contacts : List (Text × Bool)) : Bool :=
  contacts.all fun contact => valuation contact.1 !=
    if isShared contact.1 then contacts.contains (contact.1, true) else contact.2

theorem IsSeries.contacts_head {negated : Bool} {e : Expression} (series : IsSeries negated e) :
    ∃ name rest, e.contacts = (name, negated) :: rest := by
  induction series with
  | reference => exact ⟨_, [], rfl⟩
  | negated => exact ⟨_, [], rfl⟩
  | twice _ ih =>
    obtain ⟨name, rest, eq⟩ := ih
    refine ⟨name, rest, ?_⟩
    simp only [Expression.contacts, eq, closeHead, List.modifyHead_cons]
  | @both _ _ _ right _ _ ih _ =>
    obtain ⟨name, rest, eq⟩ := ih
    refine ⟨name, rest ++ right.contacts, ?_⟩
    rw [Expression.contacts, eq, List.cons_append]

/-- The value of a series is what its contacts conduct one by one. -/
theorem IsSeries.value_eq {negated : Bool} {e : Expression} (series : IsSeries negated e)
    (valuation : Text → Bool) :
    e.value valuation = e.contacts.all fun contact => valuation contact.1 != contact.2 := by
  induction series with
  | reference => simp [Expression.value, Expression.contacts]
  | negated => simp [Expression.value, Expression.contacts, closeHead]
  | twice inner ih =>
    obtain ⟨name, rest, eq⟩ := inner.contacts_head
    have same : closeHead (closeHead ((name, true) :: rest)) = (name, true) :: rest := rfl
    simp only [Expression.value, Expression.contacts, Bool.not_not, ih, eq, same]
  | both _ _ left right =>
    simp only [Expression.value, Expression.contacts, List.all_append, left, right]

def UsedOneWay (isShared : Text → Bool) (contacts : List (Text × Bool)) : Prop :=
  ∀ contact ∈ contacts, isShared contact.1 → (contact.1, true) ∈ contacts → contact.2 = true

theorem conductsSeries_of_usedOneWay {isShared : Text → Bool} {contacts : List (Text × Bool)}
    (oneWay : UsedOneWay isShared contacts) (valuation : Text → Bool) :
    conductsSeries isShared valuation contacts =
      contacts.all fun contact => valuation contact.1 != contact.2 := by
  unfold conductsSeries
  rw [Bool.eq_iff_iff, List.all_eq_true, List.all_eq_true]
  apply forall₂_congr
  intro contact mem
  cases shared : isShared contact.1 with
  | false => rw [if_neg Bool.false_ne_true]
  | true =>
    rw [if_pos rfl]
    cases closed : contacts.contains (contact.1, true) with
    | true => rw [oneWay contact mem shared (List.contains_iff_mem.mp closed)]
    | false =>
      have other : contact.2 = false := by
        cases polarity : contact.2 with
        | false => rfl
        | true =>
          rw [← polarity] at closed
          exact absurd (List.contains_iff_mem.mpr mem) (Bool.eq_false_iff.mp closed)
      rw [other]

section Standing
variable (inputs : List (Text × Nat))

/-- The places of the contacts of a series: those of inputs stand where they stood, the others
    follow one another from `start` on. -/
def standing : (start : Nat) → List (Text × Bool) → List Nat
  | _, [] => []
  | start, (name, _) :: rest =>
    match inputs.lookup name with
    | some node => node :: standing start rest
    | none => start :: standing (start + 1) rest

def freshContacts (contacts : List (Text × Bool)) : List (Text × Bool) :=
  contacts.filter fun contact => (inputs.lookup contact.1).isNone

def contactSymbol (contact : Text × Bool) : Symbol := .contact contact.1 false (some contact.2)

theorem freshContacts_cons (contact : Text × Bool) (rest : List (Text × Bool)) :
    freshContacts inputs (contact :: rest) = if (inputs.lookup contact.1).isNone then
      contact :: freshContacts inputs rest else freshContacts inputs rest := List.filter_cons

theorem freshContacts_append (first second : List (Text × Bool)) :
    freshContacts inputs (first ++ second) =
      freshContacts inputs first ++ freshContacts inputs second := List.filter_append ..

theorem standing_append (start : Nat) (first second : List (Text × Bool)) :
    standing inputs start (first ++ second) = standing inputs start first ++
      standing inputs (start + (freshContacts inputs first).length) second := by
  induction first generalizing start with
  | nil => rfl
  | cons contact rest ih =>
    obtain ⟨name, closed⟩ := contact
    cases found : inputs.lookup name with
    | some node => simp [standing, freshContacts_cons, found, ih]
    | none =>
      have next : start + ((freshContacts inputs rest).length + 1) =
          start + 1 + (freshContacts inputs rest).length := by omega
      simp [standing, freshContacts_cons, found, ih, next]

theorem standing_closeHead (start : Nat) (contacts : List (Text × Bool)) :
    standing inputs start (closeHead contacts) = standing inputs start contacts := by
  cases contacts <;> rfl

theorem standing_head (start : Nat) (contacts : List (Text × Bool)) :
    (standing inputs start contacts).head? =
      contacts.head?.map fun contact => (inputs.lookup contact.1).getD start := by
  cases contacts with
  | nil => rfl
  | cons contact rest =>
    cases found : inputs.lookup contact.1 <;> simp [standing, found]

theorem IsAndNot.lead_eq {levels : Nat} {e : Expression} (tree : IsAndNot levels e) :
    ∃ name closed rest, e.contacts = (name, closed) :: rest ∧
      e.lead inputs levels = (inputs.lookup name).elim .fresh .input := by
  induction tree with
  | @reference _ name => exact ⟨name, false, [], rfl, rfl⟩
  | negation _ ih =>
    obtain ⟨name, closed, rest, eq, lead⟩ := ih
    refine ⟨name, true, rest, ?_, lead⟩
    simp only [Expression.contacts, eq, closeHead, List.modifyHead_cons]
  | @both _ _ right _ _ ih _ =>
    obtain ⟨name, closed, rest, eq, lead⟩ := ih
    refine ⟨name, closed, rest ++ right.contacts, ?_, ?_⟩
    · rw [Expression.contacts, eq, List.cons_append]
    · rw [Expression.lead, lead]
      cases inputs.lookup name <;> rfl

theorem mem_closeHead {name : Text} {contacts : List (Text × Bool)} :
    (name, true) ∈ closeHead contacts ↔
      (name, true) ∈ contacts ∨ ∃ closed, contacts.head? = some (name, closed) := by
  cases contacts with
  | nil => simp [closeHead]
  | cons contact rest =>
    obtain ⟨first, closed⟩ := contact
    simp only [closeHead, List.modifyHead_cons, List.mem_cons, Prod.mk.injEq, List.head?_cons,
      Option.some.injEq]
    grind

theorem IsAndNot.mem_negatedInputs {levels : Nat} {e : Expression} (tree : IsAndNot levels e)
    {node : Nat} : node ∈ e.negatedInputs inputs levels ↔
      ∃ name, inputs.lookup name = some node ∧ (name, true) ∈ e.contacts := by
  induction tree with
  | reference => simp [Expression.negatedInputs, Expression.contacts]
  | @negation levels operand tree ih =>
    obtain ⟨name, closed, rest, eq, lead⟩ := tree.lead_eq inputs
    have head : node ∈ (operand.lead inputs levels).places ↔ inputs.lookup name = some node := by
      rw [lead]
      cases inputs.lookup name <;> simp [Lead.places, eq_comm]
    rw [Expression.negatedInputs, List.mem_append, ih, head, Expression.contacts]
    simp only [mem_closeHead, eq, List.head?_cons]
    grind
  | both _ _ left right =>
    simp only [Expression.negatedInputs, List.mem_append, left, right, Expression.contacts]
    grind

theorem IsAndNot.labels_eq {levels : Nat} {e : Expression} (tree : IsAndNot levels e) :
    e.labels levels = [] := by
  induction tree with
  | reference => rfl
  | negation _ ih => exact ih
  | both _ _ left right => rw [Expression.labels, left, right, List.append_nil]

theorem freshContacts_closeHead (contact : Text × Bool) (rest : List (Text × Bool)) :
    freshContacts inputs (closeHead (contact :: rest)) = if (inputs.lookup contact.1).isNone then
      closeHead (freshContacts inputs (contact :: rest))
    else freshContacts inputs (contact :: rest) := by
  rw [freshContacts_cons]
  cases found : inputs.lookup contact.1 <;> simp [closeHead, freshContacts_cons, found]

/-- What is drawn stands where the contacts of a series stand, and the new nodes are the contacts
    that were not there yet. -/
structure Drawing.IsSerial (contacts : List (Text × Bool)) (d : Drawing)
    (drawn : List Nat × Drawing) : Prop where
  places : drawn.1 = standing inputs d.draft.nodes.length contacts
  added : (drawn.2.draft.nodes.drop d.draft.nodes.length).map (·.symbol) =
    (freshContacts inputs contacts).map contactSymbol

end Standing

section Draw
variable {inputs : List (Text × Nat)} {d : Drawing}

theorem drop_closeAt {Place : Type} {places : List Nat} {k : Nat} (before : ∀ i ∈ places, i < k)
    (nodes : List (Node Place)) : (closeAt places nodes).drop k = nodes.drop k := by
  apply List.ext_getElem?
  intro i
  rw [List.getElem?_drop, List.getElem?_drop, getElem?_closeAt]
  have outside : k + i ∉ places := by
    intro mem
    have := before _ mem
    omega
  simp [outside]

theorem Drawing.IsSerial.closeFirst {contact : Text × Bool} {rest : List (Text × Bool)}
    {drawn : List Nat × Drawing}
    (placed : ∀ name node, inputs.lookup name = some node → node < d.draft.nodes.length)
    (serial : IsSerial inputs (contact :: rest) d drawn) :
    IsSerial inputs (closeHead (contact :: rest)) d (drawn.1, drawn.2.closeFirst drawn.1) := by
  obtain ⟨places, added⟩ := serial
  refine ⟨by rw [standing_closeHead, places], ?_⟩
  have head : drawn.1.head? = some ((inputs.lookup contact.1).getD d.draft.nodes.length) := by
    rw [places, standing_head]
    rfl
  simp only [Drawing.closeFirst, head, Draft.closeContact]
  rw [freshContacts_closeHead]
  cases found : inputs.lookup contact.1 with
  | some node =>
    rw [Option.getD_some, List.drop_modify_of_lt _ _ _ _ (placed _ _ found), added]
    rfl
  | none =>
    rw [Option.getD_none, List.drop_modify_of_ge _ _ _ _ (Nat.le_refl _), Nat.sub_self]
    rw [freshContacts_cons, found] at added ⊢
    obtain ⟨n, others, eq, symbol, fresh⟩ := List.map_eq_cons_iff.mp added
    simp [eq, symbol, fresh, closeHead, contactSymbol, Symbol.closed]

theorem Drawing.IsSerial.append {first second : List (Text × Bool)} {d' : Drawing}
    {lefts : List Nat} {drawn : List Nat × Drawing} {places : List Nat}
    {labels : List Expression} (old : ∀ i ∈ places, i < d.draft.nodes.length)
    (before : d.draft.nodes.length ≤ d'.draft.nodes.length)
    (grows : Grows places labels d' drawn.2) (left : IsSerial inputs first d (lefts, d'))
    (right : IsSerial inputs second d' drawn) :
    IsSerial inputs (first ++ second) d (lefts ++ drawn.1, drawn.2) := by
  have count : (freshContacts inputs first).length + d.draft.nodes.length =
      d'.draft.nodes.length := by
    have eq := congrArg List.length left.added
    simp only [List.length_map, List.length_drop] at eq
    omega
  obtain ⟨added, nodes⟩ := grows.nodes
  have new : drawn.2.draft.nodes.drop d'.draft.nodes.length = added := by
    rw [nodes]
    exact List.drop_left' (length_closeAt ..)
  refine ⟨?_, ?_⟩
  · have here : lefts = standing inputs d.draft.nodes.length first := left.places
    rw [standing_append, here, right.places, ← count, Nat.add_comm]
  · have reach : d.draft.nodes.length ≤ (closeAt places d'.draft.nodes).length := by
      rwa [length_closeAt]
    rw [nodes, List.drop_append_of_le_length reach, drop_closeAt old, List.map_append, left.added,
      ← new, right.added, freshContacts_append, List.map_append]

theorem drawExpression_serial {levels : Nat} {e : Expression} (tree : IsAndNot levels e)
    (placed : ∀ name node, inputs.lookup name = some node → node < d.draft.nodes.length) :
    IsSerial inputs e.contacts d (drawExpression inputs levels e d) := by
  induction tree generalizing d with
  | @reference levels name =>
    cases found : inputs.lookup name with
    | some node =>
      simp only [drawExpression, found]
      refine ⟨?_, ?_⟩
      · simp [Expression.contacts, standing, found]
      · simp [Expression.contacts, freshContacts, found]
    | none =>
      simp only [drawExpression, found]
      refine ⟨?_, ?_⟩
      · simp [Expression.contacts, standing, found, addLogic]
      · simp [Expression.contacts, freshContacts, found, addLogic, Draft.add, contactSymbol]
  | negation tree ih =>
    obtain ⟨name, closed, rest, eq, -⟩ := tree.lead_eq inputs
    have serial := ih placed
    rw [eq] at serial
    rw [Expression.contacts, eq]
    exact serial.closeFirst placed
  | @both levels left right _ tree ih ih' =>
    have first := ih placed
    have grows := drawExpression_grows inputs levels left d
    have placed' : ∀ name node, inputs.lookup name = some node →
        node < (drawExpression inputs levels left d).2.draft.nodes.length := by
      intro name node found
      exact Nat.lt_of_lt_of_le (placed name node found) grows.length_le
    have second := ih' placed'
    have old : ∀ i ∈ right.negatedInputs inputs levels, i < d.draft.nodes.length := by
      intro i mem
      obtain ⟨name, found⟩ := Expression.mem_negatedInputs mem
      exact placed name i found
    obtain ⟨places, added⟩ := first.append old grows.length_le
      (drawExpression_grows inputs levels right _) second
    refine ⟨places, ?_⟩
    rw [drawExpression, Expression.contacts, ← added]
    simp only [if_true, Drawing.nodes_connect_draft]

theorem conducts_contactSymbol (valuation : Text → Bool) (name : Text) (closed : Bool) :
    (contactSymbol (name, closed)).conducts valuation = (valuation name != closed) := by
  cases closed <;> simp [contactSymbol, Symbol.conducts]

theorem all_standing {Place : Type} {nodes : List (Node Place)} {closed : Text → Bool}
    (shared : ∀ name node, inputs.lookup name = some node →
      (nodes[node]?).map (·.symbol) = some (contactSymbol (name, closed name)))
    (valuation : Text → Bool) {start : Nat} {contacts : List (Text × Bool)}
    (fresh : (nodes.drop start).map (·.symbol) =
      (freshContacts inputs contacts).map contactSymbol) :
    (standing inputs start contacts).all
        (fun i => (nodes[i]?).any (·.symbol.conducts valuation)) =
      contacts.all fun contact => valuation contact.1 !=
        if (inputs.lookup contact.1).isSome then closed contact.1 else contact.2 := by
  induction contacts generalizing start with
  | nil => rfl
  | cons contact rest ih =>
    obtain ⟨name, polarity⟩ := contact
    cases found : inputs.lookup name with
    | some node =>
      rw [freshContacts_cons, found] at fresh
      obtain ⟨n, here, symbol⟩ := Option.map_eq_some_iff.mp (shared name node found)
      simp [standing, found, ih fresh, here, symbol, conducts_contactSymbol]
    | none =>
      rw [freshContacts_cons, found] at fresh
      obtain ⟨n, others, split, symbol, fresh⟩ := List.map_eq_cons_iff.mp fresh
      have here : nodes[start]? = some n := by
        rw [← Nat.add_zero start, ← List.getElem?_drop, split]
        rfl
      have behind : nodes.drop (start + 1) = others := by
        rw [← List.drop_drop, split]
        rfl
      rw [← behind] at fresh
      simp [standing, found, ih fresh, here, symbol, conducts_contactSymbol]

end Draw

def Pou.isInput (pou : Pou) (name : Text) : Bool := pou.inputs.any (·.name = name)

section Surface
variable {pou : Pou} {drawsElse : Bool}

theorem surface_contact {name : Text} {node : Nat}
    (found : (pou.surface drawsElse).1.inputs.lookup name = some node) :
    ((pou.surface drawsElse).2.draft.nodes[node]?).map (·.symbol) =
      some (contactSymbol (name, false)) := by
  obtain ⟨i, here, rfl⟩ := mem_of_surface_lookup found
  rw [List.getElem?_map] at here
  obtain ⟨v, there, rfl⟩ := Option.map_eq_some_iff.mp here
  obtain ⟨bound, eq⟩ := List.getElem?_eq_some_iff.mp there
  have symbols := (Draft.empty : Draft Spot).map_addAll ((.unit, pou.blockSymbol) ::
    inputNodes (pou.inputs.map (·.name)) ++ coilNodes pou.coilNames) Prod.snd
  rw [← List.getElem?_map]
  refine (congrArg (·[i + 1]?) symbols).trans ?_
  simp [Draft.empty, inputNodes, contactSymbol, List.getElem?_append, bound, eq]

theorem lookup_isSome (name : Text) :
    ((pou.surface drawsElse).1.inputs.lookup name).isSome = pou.isInput name := by
  simp only [Pou.surface, Pou.isInput, numberedFrom]
  rw [Bool.eq_iff_iff, List.lookup_isSome_iff]
  simp only [List.mem_reverse]
  simp [List.mem_iff_getElem]

end Surface

section Assignment
variable {pou : Pou} {drawsElse : Bool} {target : Text} {e : Expression}

theorem draw_assignment_grows (single : pou.statements = [.assignment target e]) :
    Grows (e.negatedInputs (pou.surface drawsElse).1.inputs (drawingLimit - 1))
      (e.labels (drawingLimit - 1)) (pou.surface drawsElse).2 (pou.draw drawsElse) := by
  simp only [Pou.draw, single]
  exact (Part.assignment _ target e).grows _ _

theorem draw_assignment_nodes (single : pou.statements = [.assignment target e]) :
    (pou.draw drawsElse).draft.nodes = (drawExpression (pou.surface drawsElse).1.inputs
      (drawingLimit - 1) e (pou.surface drawsElse).2).2.draft.nodes := by
  simp only [Pou.draw, single]
  exact Drawing.nodes_connect_draft ..

/-- After a tree of AND and NOT the contact of an input is closed if a NOT closes it anywhere. -/
theorem draw_contact (single : pou.statements = [.assignment target e])
    (tree : IsAndNot (drawingLimit - 1) e) {name : Text} {node : Nat}
    (found : (pou.surface drawsElse).1.inputs.lookup name = some node) :
    ((pou.draw drawsElse).draft.nodes[node]?).map (·.symbol) =
      some (contactSymbol (name, e.contacts.contains (name, true))) := by
  obtain ⟨n, here, symbol⟩ := Option.map_eq_some_iff.mp (surface_contact found)
  have bound := (List.getElem?_eq_some_iff.mp here).1
  obtain ⟨added, nodes⟩ := (@draw_assignment_grows pou drawsElse target e single).nodes
  have closed : node ∈ e.negatedInputs (pou.surface drawsElse).1.inputs (drawingLimit - 1) ↔
      (name, true) ∈ e.contacts := by
    rw [tree.mem_negatedInputs]
    constructor
    · rintro ⟨other, found', mem⟩
      have same := (surface_contact found').symm.trans (surface_contact found)
      obtain rfl : other = name := by simpa [contactSymbol] using same
      exact mem
    · intro mem
      exact ⟨name, found, mem⟩
  rw [nodes, List.getElem?_append_left (by rwa [length_closeAt]), getElem?_closeAt, here]
  by_cases mem : (name, true) ∈ e.contacts
  · simp [closed.mpr mem, mem, Node.closed, symbol, contactSymbol, Symbol.closed]
  · simp [mt closed.mp mem, mem, symbol]

theorem seriesNodes_conducts (layout : Layout) (single : pou.statements = [.assignment target e])
    (tree : IsAndNot (drawingLimit - 1) e) :
    ∃ d, layout.diagram? pou = some d ∧ ∀ valuation,
      d.conducts valuation (layout.seriesNodes pou e) =
        conductsSeries pou.isInput valuation e.contacts := by
  have writable : (pou.draw layout.drawsElse).isWritable = true := by
    rw [(draw_assignment_grows single).writable, tree.labels_eq]
    rfl
  refine ⟨_, by rw [layout.diagram?_eq, if_pos writable], ?_⟩
  intro valuation
  have placed : ∀ name node, (pou.surface layout.drawsElse).1.inputs.lookup name = some node →
      node < (pou.surface layout.drawsElse).2.draft.nodes.length := by
    intro name node found
    obtain ⟨n, here, -⟩ := Option.map_eq_some_iff.mp (surface_contact found)
    exact (List.getElem?_eq_some_iff.mp here).1
  obtain ⟨places, added⟩ := drawExpression_serial tree placed
  rw [← draw_assignment_nodes single] at added
  have here : layout.seriesNodes pou e = standing (pou.surface layout.drawsElse).1.inputs
      (pou.surface layout.drawsElse).2.draft.nodes.length e.contacts := places
  rw [Diagram.conducts_mapPlaces, here]
  refine (all_standing (fun _ _ => draw_contact single tree) valuation added).trans ?_
  simp only [lookup_isSome, conductsSeries]

end Assignment

/-- For every tree of AND and NOT that is assigned to a variable the series drawn for it is found by
    closing the first contact under each NOT, once and for all, an input being one contact.  It
    conducts the value of the tree if that is variables in series, none of the inputs among them
    used both ways. -/
theorem Layout.diagram?_series (layout : Layout) {pou : Pou} {target : Text} {e : Expression}
    (single : pou.statements = [.assignment target e]) (tree : IsAndNot (drawingLimit - 1) e) :
    ∃ d, layout.diagram? pou = some d ∧ ∀ valuation,
      d.conducts valuation (layout.seriesNodes pou e) =
          conductsSeries pou.isInput valuation e.contacts ∧
        ∀ negated, IsSeries negated e → UsedOneWay pou.isInput e.contacts →
          d.conducts valuation (layout.seriesNodes pou e) = e.value valuation := by
  obtain ⟨d, drawn, conducts⟩ := seriesNodes_conducts layout single tree
  refine ⟨d, drawn, ?_⟩
  intro valuation
  refine ⟨conducts valuation, ?_⟩
  intro negated series oneWay
  calc d.conducts valuation (layout.seriesNodes pou e)
      = conductsSeries pou.isInput valuation e.contacts := conducts valuation
    _ = e.contacts.all fun contact => valuation contact.1 != contact.2 :=
        conductsSeries_of_usedOneWay oneWay valuation
    _ = e.value valuation := (series.value_eq valuation).symm

def assigning (e : Expression) : Pou :=
  ⟨.functionBlock, "Series".toList, none,
    [⟨"a".toList, "BOOL".toList, .input, none⟩, ⟨"b".toList, "BOOL".toList, .input, none⟩,
      ⟨"x".toList, "BOOL".toList, .output, none⟩], [.assignment "x".toList e]⟩

def mixedSeries : Expression :=
  .connective .and
    (.connective .and (.variable "a".toList) (.negation (.variable "b".toList)))
    (.negation (.negation
      (.connective .and (.negation (.variable "b".toList)) (.variable "c".toList))))

theorem diagram?_series_mixedSeries :
    ∃ d, Layout.standard.diagram? (assigning mixedSeries) = some d ∧ ∀ valuation,
      d.conducts valuation (Layout.standard.seriesNodes (assigning mixedSeries) mixedSeries) =
        mixedSeries.value valuation := by
  have tree : IsAndNot (drawingLimit - 1) mixedSeries :=
    .both (.both .reference (.negation .reference))
      (.negation (.negation (.both (.negation .reference) .reference)))
  have series : IsSeries false mixedSeries := .both (.both .reference .negated)
    (.twice (.both .negated .reference))
  have oneWay : UsedOneWay (assigning mixedSeries).isInput mixedSeries.contacts := by
    unfold UsedOneWay
    decide
  have single : (assigning mixedSeries).statements = [.assignment "x".toList mixedSeries] := rfl
  obtain ⟨d, drawn, conducts⟩ := Layout.standard.diagram?_series single tree
  exact ⟨d, drawn, fun valuation => (conducts valuation).2 false series oneWay⟩

/-- For some truth value of all variables the series drawn for the tree does not conduct its
    value. -/
def IsDrawnAstray (e : Expression) : Prop :=
  IsAndNot (drawingLimit - 1) e ∧ ∃ d, Layout.standard.diagram? (assigning e) = some d ∧ ∃ truth,
    d.conducts (fun _ => truth) (Layout.standard.seriesNodes (assigning e) e) ≠
      e.value fun _ => truth

/-- A NOT over a NOT, over an AND, and over an input that stands next to it. -/
theorem isDrawnAstray_of_not :
    IsDrawnAstray (.negation (.negation (.variable "a".toList))) ∧
      IsDrawnAstray
        (.negation (.connective .and (.variable "a".toList) (.variable "b".toList))) ∧
      IsDrawnAstray
        (.connective .and (.variable "a".toList) (.negation (.variable "a".toList))) := by
  refine ⟨⟨?_, _, rfl, true, ?_⟩, ⟨?_, _, rfl, false, ?_⟩, ⟨?_, _, rfl, false, ?_⟩⟩
  · exact .negation (.negation .reference)
  · decide
  · exact .negation (.both .reference .reference)
  · decide
  · exact .both .reference (.negation .reference)
  · decide

end StructuredText
