import StructuredText.Document.Diagram

/- The form for a renderer reads back to the diagram.  A field that is null is left out there, and
   one that is left out is read as null; only the type of an edge has another default. -/
namespace StructuredText
namespace Document

theorem field?_ofFields (fields : List (String × Document)) (name : String) :
    (ofFields fields).field? name = fields.lookup name := by
  simp only [ofFields, field?]
  induction fields with
  | nil => rfl
  | cons first rest ih =>
    obtain ⟨other, value⟩ := first
    have same : (name.toList == other.toList) = (name == other) := by
      rw [Bool.eq_iff_iff, beq_iff_eq, beq_iff_eq, String.toList_inj]
    rw [List.map_cons, List.lookup_cons, List.lookup_cons, same, ih]

theorem isString_ofString (s t : String) : isString s (ofString t) = decide (t = s) := by
  simp only [isString, ofString, String.toList_inj]

theorem lookup_filter {fields : List (String × Document)} (distinct : (fields.map (·.1)).Nodup)
    (keep : Document → Bool) (name : String) :
    (fields.filter fun field => keep field.2).lookup name = (fields.lookup name).filter keep := by
  induction fields with
  | nil => rfl
  | cons first rest ih =>
    obtain ⟨other, value⟩ := first
    obtain ⟨fresh, distinct⟩ := List.nodup_cons.mp distinct
    have here := ih distinct
    rw [List.filter_cons, List.lookup_cons]
    cases same : name == other with
    | false =>
      rw [← here]
      cases keep value <;> simp [List.lookup_cons, same]
    | true =>
      obtain rfl := beq_iff_eq.mp same
      have absent : rest.lookup name = none := by
        rw [List.lookup_eq_none_iff]
        intro field mem
        exact bne_iff_ne.mpr fun same => fresh (List.mem_map.mpr ⟨field, mem, same.symm⟩)
      rw [absent, Option.filter_none] at here
      cases kept : keep value <;> simp [here, kept, Option.filter_some]

theorem field?_ofSetFields {fields : List (String × Document)}
    (distinct : (fields.map (·.1)).Nodup) (name : String) :
    (ofSetFields fields).field? name = (fields.lookup name).filter (!·.isNull) := by
  rw [ofSetFields, field?_ofFields]
  exact lookup_filter distinct (!·.isNull) name

theorem list?_map {α : Type} {read : Document → Option α} {write : α → Document}
    {f : α → α} (reads : ∀ a, read (write a) = some (f a)) (items : List α) :
    list? read (.list (items.map write)) = some (items.map f) := by
  simp only [list?]
  induction items with
  | nil => rfl
  | cons a rest ih => simp [reads, ih]

end Document

theorem Position.ofDocument?_document (p : Position) : ofDocument? p.document = some p := by
  simp [ofDocument?, document, Document.required?, Document.field?_ofFields, List.lookup_cons,
    Document.real?]

namespace Symbol

theorem distinct_fields (symbol : Symbol) : (symbol.fields.map (·.1)).Nodup := by
  cases symbol <;> simp [fields]

theorem readContact?_ofSetFields (label : Text) (state : Bool) (normallyClosed : Option Bool) :
    readContact? (.ofSetFields (contact label state normallyClosed).fields) =
      some (contact label state normallyClosed) := by
  have field := Document.field?_ofSetFields (contact label state normallyClosed).distinct_fields
  simp only [readContact?, Document.required?, Document.optional?, field]
  cases normallyClosed <;> rfl

theorem readCoil?_ofSetFields (label : Text) (state : Bool) (normallyOpen : Option Bool) :
    readCoil? (.ofSetFields (coil label state normallyOpen).fields) =
      some (coil label state normallyOpen) := by
  have field := Document.field?_ofSetFields (coil label state normallyOpen).distinct_fields
  simp only [readCoil?, Document.required?, Document.optional?, field]
  cases normallyOpen <;> rfl

theorem readTimer?_ofSetFields (label : Text) (preset accumulated : Int) (type : Option Text) :
    readTimer? (.ofSetFields (timer label preset accumulated type).fields) =
      some (timer label preset accumulated type) := by
  have field := Document.field?_ofSetFields (timer label preset accumulated type).distinct_fields
  simp only [readTimer?, Document.required?, Document.optional?, field]
  cases type <;> rfl

theorem readFunctionBlock?_ofSetFields (label : Text) (inputs outputs : List Text)
    (vendor : Option Text) :
    readFunctionBlock? (.ofSetFields (functionBlock label inputs outputs vendor).fields) =
      some (functionBlock label inputs outputs vendor) := by
  have field :=
    Document.field?_ofSetFields (functionBlock label inputs outputs vendor).distinct_fields
  have inputsField :
      (Document.ofSetFields (functionBlock label inputs outputs vendor).fields).field? "inputs" =
        some (.ofTexts inputs) := field "inputs"
  have outputsField :
      (Document.ofSetFields (functionBlock label inputs outputs vendor).fields).field? "outputs" =
        some (.ofTexts outputs) := field "outputs"
  simp only [readFunctionBlock?, Document.required?, Document.optional?, inputsField, outputsField,
    Document.list?_ofTexts, field]
  cases vendor <;> rfl

theorem ofDocument?_ofSetFields (symbol : Symbol) :
    ofDocument? (.ofString symbol.typeName) (.ofSetFields symbol.fields) = some symbol := by
  simp only [ofDocument?, Document.isString_ofString]
  cases symbol with
  | contact label state normallyClosed =>
    simpa [typeName] using readContact?_ofSetFields label state normallyClosed
  | coil label state normallyOpen =>
    simpa [typeName] using readCoil?_ofSetFields label state normallyOpen
  | timer label preset accumulated type =>
    simpa [typeName] using readTimer?_ofSetFields label preset accumulated type
  | functionBlock label inputs outputs vendor =>
    simpa [typeName] using readFunctionBlock?_ofSetFields label inputs outputs vendor

end Symbol

theorem Node.ofDocument?_rendered (n : Node Position) : ofDocument? n.rendered = some n := by
  have field := Document.field?_ofFields
    [("type", .ofString n.symbol.typeName), ("id", .text n.id), ("position", n.place.document),
      ("data", .ofSetFields n.symbol.fields)]
  have type : n.rendered.field? "type" = some (.ofString n.symbol.typeName) := field "type"
  have id : n.rendered.field? "id" = some (.text n.id) := field "id"
  have position : n.rendered.field? "position" = some n.place.document := field "position"
  have data : n.rendered.field? "data" = some (.ofSetFields n.symbol.fields) := field "data"
  simp only [ofDocument?, contentOfDocument?, Document.required?, type, id, position, data]
  simp [Position.ofDocument?_document, Symbol.ofDocument?_ofSetFields, Document.text?]

namespace Edge

/-- The edge with a type, which is that of smooth steps if it had none. -/
def typed (e : Edge) : Edge := { e with type := some (e.type.getD "smoothstep".toList) }

theorem typed_eq_self_iff (e : Edge) : e.typed = e ↔ e.type ≠ none := by
  obtain ⟨id, source, target, sourceHandle, targetHandle, type⟩ := e
  cases type <;> simp [typed]

theorem ofDocument?_rendered (e : Edge) : ofDocument? e.rendered = some e.typed := by
  have distinct : ((e.fields "sourceHandle" "targetHandle").map (·.1)).Nodup := by simp [fields]
  have field := Document.field?_ofSetFields distinct
  simp only [ofDocument?, rendered, Document.required?, Document.optional?, Document.eitherField?,
    field]
  obtain ⟨id, source, target, sourceHandle, targetHandle, type⟩ := e
  cases sourceHandle <;> cases targetHandle <;> cases type <;> rfl

end Edge

namespace Diagram

def typed {Place : Type} (d : Diagram Place) : Diagram Place :=
  { d with edges := d.edges.map Edge.typed }

theorem typed_eq_self_iff {Place : Type} (d : Diagram Place) :
    d.typed = d ↔ ∀ edge ∈ d.edges, edge.type ≠ none := by
  obtain ⟨nodes, edges⟩ := d
  have pointwise : edges.map Edge.typed = edges.map id ↔ ∀ edge ∈ edges, edge.typed = edge :=
    List.map_inj_left
  simpa only [typed, Diagram.mk.injEq, true_and, List.map_id, Edge.typed_eq_self_iff] using
    pointwise

/-- What is read from the form for a renderer is the diagram, with a type for the edges that have
    none.  So nothing is lost exactly if all edges have a type. -/
theorem ofDocument?_rendered_typed (d : Diagram Position) :
    ofDocument? d.rendered = some d.typed ∧
      (ofDocument? d.rendered = some d ↔ ∀ edge ∈ d.edges, edge.type ≠ none) := by
  have field := Document.field?_ofFields
    [("nodes", .list (d.nodes.map Node.rendered)), ("edges", .list (d.edges.map Edge.rendered))]
  have nodes : d.rendered.field? "nodes" = some (.list (d.nodes.map Node.rendered)) :=
    field "nodes"
  have edges : d.rendered.field? "edges" = some (.list (d.edges.map Edge.rendered)) :=
    field "edges"
  have read : ofDocument? d.rendered = some d.typed := by
    have readNodes := Document.list?_map (f := id) Node.ofDocument?_rendered d.nodes
    have readEdges := Document.list?_map Edge.ofDocument?_rendered d.edges
    rw [List.map_id] at readNodes
    simp only [ofDocument?, Document.optional?, nodes, edges, readNodes, readEdges]
    rfl
  refine ⟨read, ?_⟩
  rw [read, Option.some_inj, typed_eq_self_iff]

def untyped : Diagram Position :=
  ⟨[], [⟨"e".toList, "a".toList, "b".toList, none, none, none⟩]⟩

theorem ofDocument?_rendered_untyped : ofDocument? untyped.rendered ≠ some untyped := by
  decide

end Diagram
end StructuredText
