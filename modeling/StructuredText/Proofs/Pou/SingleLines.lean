import StructuredText.Proofs.Conditional.Bracketing

/- A unit in which no block opens is read line by line.  What a line adds to it depends only on
   whether a section is open there. -/
namespace StructuredText

def UnitPlace.after (place : UnitPlace) (line : Text) : UnitPlace :=
  if opensSection line then .declarations (sectionRole? (firstWord line))
  else if closesSection line then .body
  else place

/-- What a line says by itself, inside a section or among the statements. -/
def UnitPlace.contentOf (line : Text) : UnitPlace → UnitContent
  | .declarations role => ⟨(role.bind (Variable.ofLine? · line)).toList, []⟩
  | .body => ⟨[], if isTerminator line then [] else (Statement.ofLine? line).toList⟩

def UnitPlace.adds (place : UnitPlace) (line : Text) : UnitContent :=
  if line.isEmpty || opensSection line || closesSection line then ⟨[], []⟩
  else place.contentOf line

def UnitContent.append (first second : UnitContent) : UnitContent :=
  ⟨first.declared ++ second.declared, first.statements ++ second.statements⟩

def contentFrom : UnitPlace → List Text → UnitContent
  | _, [] => ⟨[], []⟩
  | place, line :: rest => (place.adds line).append (contentFrom (place.after line) rest)

theorem UnitContent.append_nil (content : UnitContent) :
    content.append ⟨[], []⟩ = content := by
  simp [UnitContent.append]

theorem UnitContent.append_assoc (a b c : UnitContent) :
    (a.append b).append c = a.append (b.append c) := by
  simp [UnitContent.append]

structure StandsAlone (kind : PouKind) (line : Text) : Prop where
  stays : endsUnit kind line = false
  single : opensBlock line = false

section Reading
variable (block : BlockReader) {kind : PouKind}

theorem readUnitLines_alone {line : Text} (alone : StandsAlone kind line) (place : UnitPlace)
    (p : Progress) : ∃ q, ∀ rest, (readUnitLines block kind place 0 (line :: rest) p).1 =
      (place.adds line).append (readUnitLines block kind (place.after line) 0 rest q).1 := by
  have shape := unitLine_eq kind line
  rw [alone.stays] at shape
  rw [UnitPlace.adds, UnitPlace.after]
  cases blank : line.isEmpty with
  | true =>
    obtain rfl := List.isEmpty_iff.mp blank
    exact ⟨p, fun rest => by rw [readUnitLines_empty _ _ _ (unitLine_nil kind)]; rfl⟩
  | false =>
    rw [blank] at shape
    cases opens : opensSection line with
    | true =>
      rw [opens] at shape
      exact ⟨p, fun rest => by rw [readUnitLines_opensSection _ _ _ shape]; rfl⟩
    | false =>
      rw [opens] at shape
      cases closes : closesSection line with
      | true =>
        rw [closes] at shape
        exact ⟨p, fun rest => by rw [readUnitLines_closesSection _ _ _ shape]; rfl⟩
      | false =>
        rw [closes] at shape
        simp only [Bool.or_self, Bool.false_eq_true, if_false] at shape ⊢
        cases place with
        | declarations role =>
          have inner : UnitLine.of kind line = .strayTerminator ∨ UnitLine.of kind line = .other := by
            rw [shape]
            split
            · exact Or.inl rfl
            · exact Or.inr rfl
          exact ⟨p, fun rest => by rw [readUnitLines_declaration _ _ _ inner]; rfl⟩
        | body =>
          rw [UnitPlace.contentOf]
          cases stray : isTerminator line with
          | true =>
            rw [stray] at shape
            exact ⟨p, fun rest => by rw [readUnitLines_stray _ _ shape]; rfl⟩
          | false =>
            rw [stray] at shape
            refine ⟨(readSingle line p).2, fun rest => ?_⟩
            rw [readUnitLines_statement _ _ shape, readAt_eq_of_single alone.single]
            rfl

theorem readUnitLines_allAlone {lines : List Text} (alone : ∀ line ∈ lines, StandsAlone kind line)
    (place : UnitPlace) (p : Progress) :
    ∃ q, ∀ rest, (readUnitLines block kind place 0 (lines ++ rest) p).1 =
      (contentFrom place lines).append
        (readUnitLines block kind (lines.foldl UnitPlace.after place) 0 rest q).1 := by
  induction lines generalizing place p with
  | nil => exact ⟨p, fun rest => rfl⟩
  | cons line lines ih =>
    obtain ⟨p', here⟩ := readUnitLines_alone block (alone line List.mem_cons_self) place p
    obtain ⟨q, later⟩ :=
      ih (fun l mem => alone l (List.mem_cons_of_mem line mem)) (place.after line) p'
    refine ⟨q, fun rest => ?_⟩
    rw [List.cons_append, here, later, contentFrom, UnitContent.append_assoc, List.foldl_cons]

end Reading

theorem endsUnit_linesFromTerminator (kind : PouKind) (lines : List Text) :
    EndsUnit kind (linesFromTerminator kind lines) := by
  have stops := List.head?_dropWhile_not (! endsUnit kind ·) lines
  rw [linesFromTerminator]
  cases found : lines.dropWhile (! endsUnit kind ·) with
  | nil => exact Or.inl rfl
  | cons line rest =>
    rw [found] at stops
    exact Or.inr ⟨line, rest, rfl, unitLine_of_endsUnit (by simpa using stops)⟩

theorem content_of_alone {source : Text} {kind : PouKind} {before : Nat} {header : Text}
    {rest : List Text}
    (first : findHeader? (lineTexts source) = some (kind, before, header, rest))
    (single : ∀ line ∈ linesBeforeTerminator kind rest, opensBlock line = false) :
    ∃ pou, Pou.ofSource? source = some pou ∧
      contentFrom .body (linesBeforeTerminator kind rest) = ⟨pou.declared, pou.statements⟩ := by
  refine ⟨(readPou kind header rest).1, ?_, ?_⟩
  · simp only [Pou.ofSource?, Reading.ofSource, readLines, first]
  · have alone : ∀ line ∈ linesBeforeTerminator kind rest, StandsAlone kind line :=
      fun line mem => ⟨eq_false_of_mem_takeWhile mem, single line mem⟩
    obtain ⟨q, read⟩ := readUnitLines_allAlone (readBlock blockLimit) alone .body Progress.start
    have whole := read (linesFromTerminator kind rest)
    rw [linesBeforeTerminator, linesFromTerminator, List.takeWhile_append_dropWhile,
      ← linesFromTerminator, readUnitLines_end (endsUnit_linesFromTerminator kind rest),
      UnitContent.append_nil] at whole
    exact whole.symm

end StructuredText
