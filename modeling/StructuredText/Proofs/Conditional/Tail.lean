import StructuredText.Proofs.Conditional.Bracketing
import StructuredText.Proofs.Source.Lines

/- What stands behind a unit's terminator.  The unit itself ends there, but a block that is still
   open reads on; unless that happens nothing behind the terminator is of consequence. -/
namespace StructuredText

theorem readBody_closeFree {lines : List Text} (free : CloseFree lines) (block : BlockReader)
    (inElse : Bool) (skip : Nat) (p : Progress) :
    (readBody block inElse skip lines p).1 = none := by
  induction lines generalizing inElse skip p with
  | nil => rw [readBody]
  | cons line rest ih =>
    have later : CloseFree rest := fun l mem => free l (List.mem_cons_of_mem _ mem)
    cases skip with
    | succ skip => exact ih later inElse skip p
    | zero =>
      rcases bodyLine_cases line with rfl | rfl | closes | content
      · rw [readBody_blank, ih later]
      · rw [readBody_else, ih later]
      · rw [free line List.mem_cons_self] at closes
        contradiction
      · rw [readBody_content _ _ _ _ content, ih later, Option.map_none]

def Closed.above (n : Nat) (c : Closed) : Closed := ⟨c.statement, c.stop + n⟩

def SameBlock (m n : Nat) (a b : Option Closed) : Prop :=
  ∃ block : Option Closed, a = block.map (·.above m) ∧ b = block.map (·.above n)

def SameBody (m n : Nat) (a b : Option (Branches × Place)) : Prop :=
  ∃ body : Option (Branches × Place),
    a = body.map (fun (branches, stop) => (branches, stop + m)) ∧
      b = body.map (fun (branches, stop) => (branches, stop + n))

theorem SameBody.closedBlock {m n : Nat} {a b : Option (Branches × Place)} (same : SameBody m n a b)
    (line : Text) : SameBlock m n (a.map (closedBlock line)) (b.map (closedBlock line)) := by
  obtain ⟨body, rfl, rfl⟩ := same
  refine ⟨body.map (StructuredText.closedBlock line), ?_, ?_⟩
  · rw [Option.map_map, Option.map_map]
    rfl
  · rw [Option.map_map, Option.map_map]
    rfl

def SameBlocks (m n : Nat) (p q : Progress) : Prop :=
  ∀ place, ∃ known : Option (Option Closed),
    p.block? (place + m) = known.map (Option.map (·.above m)) ∧
      q.block? (place + n) = known.map (Option.map (·.above n))

theorem sameBlocks_start (m n : Nat) : SameBlocks m n Progress.start Progress.start :=
  fun _ => ⟨none, rfl, rfl⟩

theorem SameBlocks.of_adds {m n : Nat} {p q p' q' : Progress} (same : SameBlocks m n p q)
    (adds : AddsBelow m p p') (adds' : AddsBelow n q q') : SameBlocks m n p' q' := by
  intro place
  rw [adds.block?_eq (Nat.le_add_left m place), adds'.block?_eq (Nat.le_add_left n place)]
  exact same place

theorem SameBlocks.of_blocks {m n : Nat} {p q p' q' : Progress} (same : SameBlocks m n p q)
    (blocks : p'.blocks = p.blocks) (blocks' : q'.blocks = q.blocks) : SameBlocks m n p' q' :=
  same.of_adds (.of_blocks blocks) (.of_blocks blocks')

theorem SameBlocks.remember {m n : Nat} {p q : Progress} (same : SameBlocks m n p q)
    (place : Place) {a b : Option Closed} (block : SameBlock m n a b) :
    SameBlocks m n (p.remember (place + m) a) (q.remember (place + n) b) := by
  intro other
  by_cases here : other = place
  · subst here
    obtain ⟨block, rfl, rfl⟩ := block
    exact ⟨some block, Progress.block?_remember .., Progress.block?_remember ..⟩
  · have differ (k : Nat) : other + k ≠ place + k := fun eq => here (Nat.add_right_cancel eq)
    rw [Progress.block?_remember_of_ne (differ m), Progress.block?_remember_of_ne (differ n)]
    exact same other

section Tails
variable {first second : List Text}

/-- Reading before two tails a block finds the same, unless it stays open before the first one and
    the second one could close it. -/
def Mirrors (first second : List Text) (block : BlockReader) : Prop :=
  ∀ line rest p q, SameBlocks first.length second.length p q →
    CloseFree second ∨ (block line (rest ++ first) p).2.allClosed = true →
      SameBlock first.length second.length (block line (rest ++ first) p).1
          (block line (rest ++ second) q).1 ∧
        SameBlocks first.length second.length (block line (rest ++ first) p).2
          (block line (rest ++ second) q).2

section Mirror
variable {block : BlockReader} (mirrors : Mirrors first second block)
  (proceeds : BlockProceeds block)
include mirrors

theorem readAt_mirrors (line : Text) (rest : List Text) {p q : Progress}
    (same : SameBlocks first.length second.length p q)
    (closed : CloseFree second ∨ (readAt block line (rest ++ first) p).2.2.allClosed = true) :
    (readAt block line (rest ++ first) p).1 = (readAt block line (rest ++ second) q).1 ∧
      (readAt block line (rest ++ first) p).2.1 = (readAt block line (rest ++ second) q).2.1 ∧
      (readAt block line (rest ++ first) p).2.1 ≤ rest.length ∧
      SameBlocks first.length second.length (readAt block line (rest ++ first) p).2.2
        (readAt block line (rest ++ second) q).2.2 := by
  cases opens : opensBlock line with
  | true =>
    obtain ⟨statement, taken, -, blocks⟩ := readAt_opening block opens (rest ++ first) p
    obtain ⟨statement', taken', -, blocks'⟩ := readAt_opening block opens (rest ++ second) q
    rw [Progress.allClosed, blocks] at closed
    obtain ⟨⟨found, eq, eq'⟩, after⟩ := mirrors line rest p q same closed
    rw [eq] at statement taken
    rw [eq'] at statement' taken'
    have resumed := after.of_blocks blocks blocks'
    cases found with
    | none =>
      simp only [Option.map_none, statementAt] at taken taken'
      exact ⟨statement.trans statement'.symm, by omega, by omega, resumed⟩
    | some c =>
      simp only [Option.map_some, statementAt, Closed.above, List.length_append] at taken taken'
      exact ⟨statement.trans statement'.symm, by omega, by omega, resumed⟩
  | false =>
    obtain ⟨statement, taken, -, blocks⟩ := readAt_single block opens (rest ++ first) p
    obtain ⟨statement', taken', -, blocks'⟩ := readAt_single block opens (rest ++ second) q
    exact ⟨statement.trans statement'.symm, taken.trans taken'.symm, by omega,
      same.of_blocks blocks blocks'⟩

include proceeds in
theorem readBody_mirrors (free : CloseFree first) (inElse : Bool) (skip : Nat) (lines : List Text)
    {p q : Progress} (same : SameBlocks first.length second.length p q)
    (closed : CloseFree second ∨
      (readBody block inElse skip (lines ++ first) p).2.allClosed = true) :
    SameBlocks first.length second.length (readBody block inElse skip (lines ++ first) p).2
        (readBody block inElse skip (lines ++ second) q).2 ∧
      (CloseFree second ∨ (readBody block inElse skip (lines ++ first) p).1.isSome = true →
        SameBody first.length second.length (readBody block inElse skip (lines ++ first) p).1
          (readBody block inElse skip (lines ++ second) q).1) := by
  induction lines generalizing inElse skip p q with
  | nil =>
    refine ⟨same.of_adds (readBody_proceeds proceeds ..).adds
      (readBody_proceeds proceeds ..).adds, ?_⟩
    have never := readBody_closeFree free block inElse skip p
    rintro (free' | found)
    · exact ⟨none, never, readBody_closeFree free' block inElse skip q⟩
    · rw [List.nil_append, never] at found
      contradiction
  | cons line rest ih =>
    rw [List.cons_append, List.cons_append] at *
    cases skip with
    | succ skip => exact ih inElse skip same closed
    | zero =>
      rcases bodyLine_cases line with rfl | rfl | closes | content
      · rw [readBody_blank] at closed ⊢
        rw [readBody_blank]
        exact ih inElse 0 same closed
      · rw [readBody_else] at closed ⊢
        rw [readBody_else]
        exact ih true 0 same closed
      · rw [readBody_close _ _ _ _ closes, readBody_close _ _ _ _ closes]
        refine ⟨same, fun _ => ⟨some (⟨[], []⟩, rest.length), ?_, ?_⟩⟩
        · simp only [Option.map_some, List.length_append]
        · simp only [Option.map_some, List.length_append]
      · rw [readBody_content _ _ _ _ content] at closed ⊢
        rw [readBody_content _ _ _ _ content]
        have closed' := closed.imp_right (readBody_proceeds proceeds _ _ _ _).adds.allClosed
        obtain ⟨statement, taken, -, after⟩ := readAt_mirrors mirrors line rest same closed'
        rw [← statement, ← taken]
        obtain ⟨behind, bodies⟩ := ih inElse _ after closed
        refine ⟨behind, ?_⟩
        rw [Option.isSome_map]
        intro ends
        obtain ⟨body, eq, eq'⟩ := bodies ends
        refine ⟨body.map fun b => (b.1.add inElse (readAt block line (rest ++ first) p).1, b.2), ?_, ?_⟩
        · rw [eq, Option.map_map, Option.map_map]
          rfl
        · rw [eq', Option.map_map, Option.map_map]
          rfl

end Mirror

theorem readBlock_mirrors (free : CloseFree first) (levels : Nat) :
    Mirrors first second (readBlock levels) := by
  induction levels with
  | zero =>
    intro line rest p q same closed
    simp only [readBlock, List.length_append] at closed ⊢
    obtain ⟨known, eq, eq'⟩ := same rest.length
    rw [eq, eq']
    cases known with
    | none => exact ⟨⟨none, rfl, rfl⟩, same.of_blocks rfl rfl⟩
    | some block => exact ⟨⟨block, rfl, rfl⟩, same⟩
  | succ levels ih =>
    intro line rest p q same closed
    simp only [readBlock, List.length_append] at closed ⊢
    obtain ⟨known, eq, eq'⟩ := same rest.length
    rw [eq] at closed ⊢
    rw [eq']
    cases known with
    | some block => exact ⟨⟨block, rfl, rfl⟩, same⟩
    | none =>
      simp only [Option.map_none] at closed ⊢
      have noted : SameBlocks first.length second.length (p.note (conditionCutOffs line))
          (q.note (conditionCutOffs line)) := same.of_blocks rfl rfl
      -- A block that stays open is remembered as such, so not all blocks have closed.
      have parts := closed.imp_right (allClosed_remember _ _ _).mp
      obtain ⟨after, bodies⟩ := readBody_mirrors ih (readBlock_proceeds levels) free false 0 rest noted
        (parts.imp_right And.right)
      have block := (bodies (parts.imp_right fun both => by simpa using both.1)).closedBlock line
      exact ⟨block, after.remember rest.length block⟩

/-- The lines of a unit before its terminator mean the same whatever is behind it. -/
theorem readUnitLines_mirrors {block : BlockReader} (mirrors : Mirrors first second block)
    (proceeds : BlockProceeds block) {kind : PouKind}
    (ends : EndsUnit kind first) (ends' : EndsUnit kind second) (place : UnitPlace) {skip : Nat}
    {lines : List Text} (inside : skip ≤ lines.length) {p q : Progress}
    (same : SameBlocks first.length second.length p q)
    (closed : CloseFree second ∨
      (readUnitLines block kind place skip (lines ++ first) p).2.allClosed = true) :
    (readUnitLines block kind place skip (lines ++ first) p).1 =
      (readUnitLines block kind place skip (lines ++ second) q).1 := by
  induction lines generalizing place skip p q with
  | nil =>
    obtain rfl : skip = 0 := Nat.le_zero.mp inside
    rw [List.nil_append, List.nil_append, readUnitLines_end ends, readUnitLines_end ends']
  | cons line rest ih =>
    rw [List.cons_append] at closed ⊢
    rw [List.cons_append]
    cases skip with
    | succ skip => exact ih place (Nat.le_of_succ_le_succ inside) same closed
    | zero =>
      rcases frame_cases kind line place with stops | ⟨rfl, other⟩ | ⟨later, declared, frame⟩
      · rw [readUnitLines_terminator _ _ _ stops, readUnitLines_terminator _ _ _ stops]
      · rw [readUnitLines_statement _ _ other] at closed ⊢
        rw [readUnitLines_statement _ _ other]
        have closed' := closed.imp_right (readUnitLines_proceeds proceeds _ _ _ _ _).adds.allClosed
        obtain ⟨statement, taken, short, after⟩ := readAt_mirrors mirrors line rest same closed'
        rw [← statement, ← taken, ih .body short after closed]
      · rw [frame.reads] at closed ⊢
        rw [frame.reads, ih later (Nat.zero_le _) same closed]

end Tails

theorem findHeader?_append {lines : List Text} {found : PouKind × Nat × Text × List Text}
    (first : findHeader? lines = some found) (more : List Text) :
    findHeader? (lines ++ more) =
      some (found.1, found.2.1, found.2.2.1, found.2.2.2 ++ more) := by
  induction lines generalizing found with
  | nil => contradiction
  | cons line rest ih =>
    rw [findHeader?] at first
    rw [List.cons_append, findHeader?]
    cases header : headerKind? line with
    | some kind =>
      rw [header] at first
      obtain rfl := Option.some.inj first
      rfl
    | none =>
      rw [header] at first
      obtain ⟨inner, eq, rfl⟩ := Option.map_eq_some_iff.mp first
      rw [ih eq]
      rfl

/-- In reading the first unit of a source some block is met that does not close. -/
def hasOpenBlock (source : Text) : Bool :=
  (findHeader? (lineTexts source)).any fun (kind, _, header, rest) =>
    !(readPou kind header rest).2.allClosed

/-- Nothing behind the terminator of a unit matters, as long as no block of the unit is open there
    that an END_IF behind it could close. -/
theorem Pou.ofSource?_append {source more : Text} {kind : PouKind} {before : Nat} {header : Text}
    {body : List Text} {last : Text}
    (first : findHeader? (lineTexts source) = some (kind, before, header, body ++ [last]))
    (ends : endsUnit kind last = true) (inCode : endsInComment source = false)
    (closed : hasOpenBlock source = false ∨ CloseFree (lineTexts more)) :
    Pou.ofSource? (source ++ '\n' :: more) = Pou.ofSource? source := by
  have stays : closesBlock last = false := not_closesBlock_of_endsUnit ends
  have free : CloseFree [last] := by
    intro line mem
    rwa [List.mem_singleton.mp mem]
  have first' := findHeader?_append first (lineTexts more)
  rw [← lineTexts_append inCode more] at first'
  have behind : body ++ [last] ++ lineTexts more = body ++ last :: lineTexts more := by
    rw [List.append_assoc, List.singleton_append]
  have closed' : CloseFree (last :: lineTexts more) ∨
      (readUnitLines (readBlock blockLimit) kind .body 0 (body ++ [last])
        Progress.start).2.allClosed = true := by
    rcases closed with shut | free'
    · simp only [hasOpenBlock, first, Option.any_some, Bool.not_eq_false'] at shut
      exact Or.inr shut
    · left
      intro line mem
      rcases List.mem_cons.mp mem with rfl | mem
      · exact stays
      · exact free' line mem
  have terminator := unitLine_of_endsUnit ends
  have same := readUnitLines_mirrors (readBlock_mirrors free blockLimit) (readBlock_proceeds blockLimit)
    (Or.inr ⟨last, [], rfl, terminator⟩) (Or.inr ⟨last, lineTexts more, rfl, terminator⟩) .body
    (Nat.zero_le _) (sameBlocks_start _ _) closed'
  simp only [Pou.ofSource?, Reading.ofSource, readLines, first, first', behind, readPou, readPouBy,
    same]

theorem ofSource?_append_secondUnit :
    findHeader? (lineTexts "PROGRAM P\nIF a THEN\nx := y;\nEND_IF\nEND_PROGRAM".toList) =
        some (.program, 0, "PROGRAM P".toList,
          ["IF a THEN", "x := y;", "END_IF"].map String.toList ++ ["END_PROGRAM".toList]) ∧
      Pou.ofSource? ("PROGRAM P\nIF a THEN\nx := y;\nEND_IF\nEND_PROGRAM".toList ++
          '\n' :: "PROGRAM Q\nIF b THEN\nx := z;\nEND_IF\nEND_PROGRAM".toList) =
        Pou.ofSource? "PROGRAM P\nIF a THEN\nx := y;\nEND_IF\nEND_PROGRAM".toList := by
  have first : findHeader? (lineTexts
      "PROGRAM P\nIF a THEN\nx := y;\nEND_IF\nEND_PROGRAM".toList) =
        some (.program, 0, "PROGRAM P".toList,
          ["IF a THEN", "x := y;", "END_IF"].map String.toList ++ ["END_PROGRAM".toList]) := by
    decide
  refine ⟨first, Pou.ofSource?_append first ?_ ?_ (Or.inl ?_)⟩
  · decide
  · decide
  · decide

/-- An END_IF behind the terminator closes a block that is still open there. -/
theorem ofSource?_append_ne :
    findHeader? (lineTexts "PROGRAM P\nIF a THEN\nx := y;\nEND_PROGRAM".toList) =
        some (.program, 0, "PROGRAM P".toList,
          ["IF a THEN", "x := y;"].map String.toList ++ ["END_PROGRAM".toList]) ∧
      endsUnit .program "END_PROGRAM".toList = true ∧
      endsInComment "PROGRAM P\nIF a THEN\nx := y;\nEND_PROGRAM".toList = false ∧
      ∃ alone longer,
        Pou.ofSource? "PROGRAM P\nIF a THEN\nx := y;\nEND_PROGRAM".toList = some alone ∧
        Pou.ofSource? ("PROGRAM P\nIF a THEN\nx := y;\nEND_PROGRAM".toList ++
          '\n' :: "END_IF".toList) = some longer ∧ alone.same longer = false := by
  refine ⟨?_, ?_, ?_, _, _, rfl, rfl, ?_⟩
  · decide
  · decide
  · decide
  · decide +kernel

end StructuredText
