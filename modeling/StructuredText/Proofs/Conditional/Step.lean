import StructuredText.Pou.Reading

/- What a single line does to the reading of a block's body and of a unit: one equation for each
   kind of line, and the kinds are all there are.  The header stands before what is read. -/
namespace StructuredText

structure IsContent (line : Text) : Prop where
  nonempty : line.isEmpty = false
  stays : line ≠ "ELSE".toList
  goesOn : closesBlock line = false

theorem bodyLine_cases (line : Text) :
    line = [] ∨ line = "ELSE".toList ∨ closesBlock line = true ∨ IsContent line := by
  by_cases turns : line = "ELSE".toList
  · exact Or.inr (Or.inl turns)
  · cases blank : line.isEmpty with
    | true => exact Or.inl (List.isEmpty_iff.mp blank)
    | false =>
      cases closes : closesBlock line with
      | true => exact Or.inr (Or.inr (Or.inl rfl))
      | false => exact Or.inr (Or.inr (Or.inr ⟨blank, turns, closes⟩))

theorem eq_of_closesBlock {line : Text} (closes : closesBlock line = true) :
    line = "END_IF".toList ∨ line = "END_IF;".toList := by
  simpa only [closesBlock, Bool.or_eq_true, decide_eq_true_eq] using closes

theorem not_blank_of_closesBlock {line : Text} (closes : closesBlock line = true) :
    ¬ line.isEmpty = true ∧ line ≠ "ELSE".toList := by
  rcases eq_of_closesBlock closes with rfl | rfl <;> exact ⟨by decide, by decide⟩

theorem content_of_opensBlock {line : Text} (opens : opensBlock line = true) : IsContent line := by
  refine ⟨?_, ?_, ?_⟩
  · cases line with
    | nil => contradiction
    | cons c t => rfl
  · rintro rfl
    contradiction
  · cases closes : closesBlock line with
    | false => rfl
    | true =>
      rcases eq_of_closesBlock closes with rfl | rfl <;> contradiction

section Body
variable (block : BlockReader) (inElse : Bool) (rest : List Text) (p : Progress)

theorem readBody_blank :
    readBody block inElse 0 ([] :: rest) p = readBody block inElse 0 rest p := by
  simp [readBody]

theorem readBody_else :
    readBody block inElse 0 ("ELSE".toList :: rest) p = readBody block true 0 rest p := by
  rw [readBody, if_neg (by decide), if_pos rfl]

theorem readBody_close {line : Text} (closes : closesBlock line = true) :
    readBody block inElse 0 (line :: rest) p = (some (⟨[], []⟩, rest.length), p) := by
  obtain ⟨nonempty, other⟩ := not_blank_of_closesBlock closes
  rw [readBody, if_neg nonempty, if_neg other, if_pos closes]

theorem readBody_content {line : Text} (content : IsContent line) :
    readBody block inElse 0 (line :: rest) p =
      ((readBody block inElse (readAt block line rest p).2.1 rest
            (readAt block line rest p).2.2).1.map
          fun body => (body.1.add inElse (readAt block line rest p).1, body.2),
        (readBody block inElse (readAt block line rest p).2.1 rest
          (readAt block line rest p).2.2).2) := by
  rw [readBody, if_neg (by simp [content.nonempty]), if_neg content.stays,
    if_neg (by simp [content.goesOn])]

end Body

theorem readSingle_fst (line : Text) (p : Progress) :
    (readSingle line p).1 = Statement.ofLine? line := by
  simp only [readSingle, Statement.ofLine?]
  split <;> simp_all

theorem readSingle_tooDeep (line : Text) (p : Progress) :
    (readSingle line p).2.tooDeep = p.tooDeep := by
  simp only [readSingle]
  split <;> rfl

theorem readSingle_blocks (line : Text) (p : Progress) :
    (readSingle line p).2.blocks = p.blocks := by
  simp only [readSingle]
  split <;> rfl

/-- The statement at a line and the lines that belong to it, once it is known what the block that
    begins there, if one does, turns out to be. -/
def statementAt (line : Text) (rest : List Text) : Option Closed → Option Statement × Nat
  | some closed => (some closed.statement, rest.length - closed.stop)
  | none => (Statement.ofLine? line, 0)

theorem readAt_opening (block : BlockReader) {line : Text} (opens : opensBlock line)
    (rest : List Text) (p : Progress) :
    (readAt block line rest p).1 = (statementAt line rest (block line rest p).1).1 ∧
      (readAt block line rest p).2.1 = (statementAt line rest (block line rest p).1).2 ∧
      (readAt block line rest p).2.2.tooDeep = (block line rest p).2.tooDeep ∧
      (readAt block line rest p).2.2.blocks = (block line rest p).2.blocks := by
  rcases found : block line rest p with ⟨_ | closed, after⟩
  · simp [readAt, opens, found, statementAt, readSingle_fst, readSingle_tooDeep, readSingle_blocks]
  · simp [readAt, opens, found, statementAt]

theorem readAt_eq_of_single {block : BlockReader} {line : Text} (single : opensBlock line = false)
    (rest : List Text) (p : Progress) :
    readAt block line rest p = (Statement.ofLine? line, 0, (readSingle line p).2) := by
  simp [readAt, single, readSingle_fst]

theorem readAt_single (block : BlockReader) {line : Text} (single : opensBlock line = false)
    (rest : List Text) (p : Progress) :
    (readAt block line rest p).1 = Statement.ofLine? line ∧
      (readAt block line rest p).2.1 = 0 ∧
      (readAt block line rest p).2.2.tooDeep = p.tooDeep ∧
      (readAt block line rest p).2.2.blocks = p.blocks := by
  rw [readAt_eq_of_single single]
  exact ⟨rfl, rfl, readSingle_tooDeep line p, readSingle_blocks line p⟩

section UnitLines
variable {block : BlockReader} {kind : PouKind} {line : Text} (place : UnitPlace)
  (rest : List Text) (p : Progress)

theorem readUnitLines_empty (empty : UnitLine.of kind line = .empty) :
    readUnitLines block kind place 0 (line :: rest) p =
      readUnitLines block kind place 0 rest p := by
  simp [readUnitLines, empty]

theorem readUnitLines_terminator (ends : UnitLine.of kind line = .terminator) :
    readUnitLines block kind place 0 (line :: rest) p = (⟨[], []⟩, p) := by
  simp [readUnitLines, ends]

theorem readUnitLines_opensSection {role : Option VariableRole}
    (opens : UnitLine.of kind line = .opensSection role) :
    readUnitLines block kind place 0 (line :: rest) p =
      readUnitLines block kind (.declarations role) 0 rest p := by
  simp [readUnitLines, opens]

theorem readUnitLines_closesSection (closes : UnitLine.of kind line = .closesSection) :
    readUnitLines block kind place 0 (line :: rest) p =
      readUnitLines block kind .body 0 rest p := by
  simp [readUnitLines, closes]

theorem readUnitLines_declaration (role : Option VariableRole)
    (inner : UnitLine.of kind line = .strayTerminator ∨ UnitLine.of kind line = .other) :
    readUnitLines block kind (.declarations role) 0 (line :: rest) p =
      (⟨(role.bind (Variable.ofLine? · line)).toList ++
            (readUnitLines block kind (.declarations role) 0 rest p).1.declared,
          (readUnitLines block kind (.declarations role) 0 rest p).1.statements⟩,
        (readUnitLines block kind (.declarations role) 0 rest p).2) := by
  rcases inner with stray | other
  · simp [readUnitLines, stray]
  · simp [readUnitLines, other]

theorem readUnitLines_stray (stray : UnitLine.of kind line = .strayTerminator) :
    readUnitLines block kind .body 0 (line :: rest) p =
      readUnitLines block kind .body 0 rest p := by
  simp [readUnitLines, stray]

theorem readUnitLines_statement (other : UnitLine.of kind line = .other) :
    readUnitLines block kind .body 0 (line :: rest) p =
      (⟨(readUnitLines block kind .body (readAt block line rest p).2.1 rest
            (readAt block line rest p).2.2).1.declared,
          (readAt block line rest p).1.toList ++
            (readUnitLines block kind .body (readAt block line rest p).2.1 rest
              (readAt block line rest p).2.2).1.statements⟩,
        (readUnitLines block kind .body (readAt block line rest p).2.1 rest
          (readAt block line rest p).2.2).2) := by
  simp [readUnitLines, other]

end UnitLines

theorem unitLine_cases (kind : PouKind) (line : Text) (place : UnitPlace) :
    UnitLine.of kind line = .empty ∨ UnitLine.of kind line = .terminator ∨
      (∃ role, UnitLine.of kind line = .opensSection role) ∨
      UnitLine.of kind line = .closesSection ∨
      (∃ role, place = .declarations role ∧
        (UnitLine.of kind line = .strayTerminator ∨ UnitLine.of kind line = .other)) ∨
      (place = .body ∧ UnitLine.of kind line = .strayTerminator) ∨
      (place = .body ∧ UnitLine.of kind line = .other) := by
  cases UnitLine.of kind line <;> cases place <;> simp

/-- A line of a unit that is neither its terminator nor read as code leads to the next line, at
    another place perhaps, and with what it declares. -/
structure IsFrame (kind : PouKind) (line : Text) (place later : UnitPlace)
    (declared : List Variable) : Prop where
  reads : ∀ block rest p, readUnitLines block kind place 0 (line :: rest) p =
    (⟨declared ++ (readUnitLines block kind later 0 rest p).1.declared,
        (readUnitLines block kind later 0 rest p).1.statements⟩,
      (readUnitLines block kind later 0 rest p).2)
  declares : ∀ v ∈ declared, ∃ role, Variable.ofLine? role line = some v

theorem isFrame_of_reads {kind : PouKind} {line : Text} {place later : UnitPlace}
    (reads : ∀ block rest p, readUnitLines block kind place 0 (line :: rest) p =
      readUnitLines block kind later 0 rest p) : IsFrame kind line place later [] :=
  ⟨reads, List.forall_mem_nil _⟩

theorem frame_cases (kind : PouKind) (line : Text) (place : UnitPlace) :
    UnitLine.of kind line = .terminator ∨
      (place = .body ∧ UnitLine.of kind line = .other) ∨
      ∃ later declared, IsFrame kind line place later declared := by
  rcases unitLine_cases kind line place with
    empty | ends | ⟨role, opens⟩ | closes | ⟨role, rfl, inner⟩ | ⟨rfl, stray⟩ | other
  · exact Or.inr (Or.inr ⟨_, _, isFrame_of_reads fun _ rest p =>
      readUnitLines_empty place rest p empty⟩)
  · exact Or.inl ends
  · exact Or.inr (Or.inr ⟨_, _, isFrame_of_reads fun _ rest p =>
      readUnitLines_opensSection place rest p opens⟩)
  · exact Or.inr (Or.inr ⟨_, _, isFrame_of_reads fun _ rest p =>
      readUnitLines_closesSection place rest p closes⟩)
  · refine Or.inr (Or.inr ⟨_, _, fun _ rest p => readUnitLines_declaration rest p role inner, ?_⟩)
    intro v mem
    obtain ⟨role, rfl, found⟩ := Option.bind_eq_some_iff.mp (Option.mem_toList.mp mem)
    exact ⟨role, found⟩
  · exact Or.inr (Or.inr ⟨_, _, isFrame_of_reads fun _ rest p =>
      readUnitLines_stray rest p stray⟩)
  · exact Or.inr (Or.inl other)

theorem findHeader?_split {lines : List Text} {kind : PouKind} {before : Nat} {header : Text}
    {rest : List Text} (found : findHeader? lines = some (kind, before, header, rest)) :
    headerKind? header = some kind ∧
      ∃ lead, lines = lead ++ header :: rest ∧ lead.length = before := by
  induction lines generalizing before with
  | nil => contradiction
  | cons line more ih =>
    rw [findHeader?] at found
    cases here : headerKind? line with
    | some first =>
      rw [here] at found
      obtain ⟨rfl, rfl, rfl, rfl⟩ : first = kind ∧ 0 = before ∧ line = header ∧ more = rest := by
        simpa using found
      exact ⟨here, [], rfl, rfl⟩
    | none =>
      rw [here] at found
      obtain ⟨⟨kind', before', header', rest'⟩, later, eq⟩ := Option.map_eq_some_iff.mp found
      obtain ⟨rfl, rfl, rfl, rfl⟩ :
          kind' = kind ∧ before' + 1 = before ∧ header' = header ∧ rest' = rest := by
        simpa using eq
      obtain ⟨isHeader, lead, rfl, length⟩ := ih later
      exact ⟨isHeader, line :: lead, rfl, by rw [List.length_cons, length]⟩

theorem suffix_of_findHeader? {lines : List Text} {kind : PouKind} {before : Nat} {header : Text}
    {rest : List Text} (found : findHeader? lines = some (kind, before, header, rest)) :
    rest <:+ lines := by
  obtain ⟨-, lead, rfl, -⟩ := findHeader?_split found
  exact (List.suffix_cons header rest).trans (List.suffix_append lead _)

end StructuredText
