import Mathlib.Data.List.Infix
import StructuredText.Proofs.Conditional.Memory

/- Reading conditional blocks without a memory and without a bound on their nesting: a block is
   read anew each time its first line is met.  As long as no block lies too deep, remembering
   blocks changes nothing but the time it takes. -/
namespace StructuredText

def rereadWithin : (levels : Nat) → BlockReader
  | 0, _, _, p => (none, p)
  | levels + 1, line, rest, p =>
    let (body, p) := readBody (rereadWithin levels) false 0 rest (p.note (conditionCutOffs line))
    (body.map (closedBlock line), p)

/-- A block inside another has fewer lines behind it, so this many levels are never used up. -/
def reread : BlockReader := fun line rest p => rereadWithin (rest.length + 1) line rest p

theorem readBody_congr {a b : BlockReader} {lines : List Text}
    (same : ∀ line rest p, rest.length < lines.length → a line rest p = b line rest p)
    (inElse : Bool) (skip : Nat) (p : Progress) :
    readBody a inElse skip lines p = readBody b inElse skip lines p := by
  induction lines generalizing inElse skip p with
  | nil => simp [readBody]
  | cons line rest ih =>
    have shorter : ∀ l r p, r.length < rest.length → a l r p = b l r p :=
      fun l r p short => same l r p (by simp only [List.length_cons]; omega)
    have here : readAt a line rest p = readAt b line rest p := by
      simp only [readAt, same line rest p (by simp)]
    cases skip with
    | succ skip => simp only [readBody, ih shorter]
    | zero => simp only [readBody, ih shorter, here]

theorem rereadWithin_eq {m n : Nat} {line : Text} {rest : List Text} (p : Progress)
    (hm : rest.length < m) (hn : rest.length < n) :
    rereadWithin m line rest p = rereadWithin n line rest p := by
  induction m generalizing n line rest p with
  | zero => omega
  | succ m ih =>
    cases n with
    | zero => omega
    | succ n =>
      have inner : ∀ l r q, r.length < rest.length →
          rereadWithin m l r q = rereadWithin n l r q :=
        fun l r q short => ih q (by omega) (by omega)
      simp only [rereadWithin, readBody_congr inner]

/-- No bound is left: what reads the body of a block is `reread` again. -/
theorem reread_eq (line : Text) (rest : List Text) (p : Progress) :
    reread line rest p =
      ((readBody reread false 0 rest (p.note (conditionCutOffs line))).1.map (closedBlock line),
        (readBody reread false 0 rest (p.note (conditionCutOffs line))).2) := by
  have inner : ∀ l r q, r.length < rest.length →
      rereadWithin rest.length l r q = reread l r q :=
    fun l r q short => rereadWithin_eq q short (by omega)
  simp only [reread, rereadWithin, readBody_congr inner]

def Forgetful (block : BlockReader) : Prop :=
  ∀ line rest p q, (block line rest p).1 = (block line rest q).1

theorem readAt_forgetful {block : BlockReader} (forgetful : Forgetful block) (line : Text)
    (rest : List Text) (p q : Progress) :
    (readAt block line rest p).1 = (readAt block line rest q).1 ∧
      (readAt block line rest p).2.1 = (readAt block line rest q).2.1 := by
  cases opens : opensBlock line with
  | true =>
    obtain ⟨statement, skip, -⟩ := readAt_opening block opens rest p
    obtain ⟨statement', skip', -⟩ := readAt_opening block opens rest q
    rw [statement, skip, statement', skip', forgetful line rest p q]
    exact ⟨rfl, rfl⟩
  | false =>
    obtain ⟨statement, skip, -⟩ := readAt_single block opens rest p
    obtain ⟨statement', skip', -⟩ := readAt_single block opens rest q
    rw [statement, skip, statement', skip']
    exact ⟨rfl, rfl⟩

theorem readBody_forgetful {block : BlockReader} (forgetful : Forgetful block) (inElse : Bool)
    (skip : Nat) (lines : List Text) (p q : Progress) :
    (readBody block inElse skip lines p).1 = (readBody block inElse skip lines q).1 := by
  induction lines generalizing inElse skip p q with
  | nil => simp [readBody]
  | cons line rest ih =>
    cases skip with
    | succ skip => exact ih inElse skip p q
    | zero =>
      rcases bodyLine_cases line with rfl | rfl | closes | content
      · rw [readBody_blank, readBody_blank, ih]
      · rw [readBody_else, readBody_else, ih]
      · rw [readBody_close block inElse rest p closes, readBody_close block inElse rest q closes]
      · obtain ⟨statement, taken⟩ := readAt_forgetful forgetful line rest p q
        rw [readBody_content block inElse rest p content,
          readBody_content block inElse rest q content, statement, taken, ih]

theorem reread_forgetful : Forgetful reread := by
  have within (levels : Nat) : Forgetful (rereadWithin levels) := by
    induction levels with
    | zero => intro line rest p q; rfl
    | succ levels ih =>
      intro line rest p q
      simp only [rereadWithin,
        readBody_forgetful ih false 0 rest _ (q.note (conditionCutOffs line))]
  intro line rest p q
  exact within _ line rest p q

/-- Every block remembered of `lines` is what reading it anew gives. -/
def Faithful (lines : List Text) (p : Progress) : Prop :=
  ∀ line rest block, line :: rest <:+ lines → p.block? rest.length = some block →
    block = (reread line rest Progress.start).1

theorem faithful_start (lines : List Text) : Faithful lines Progress.start := by
  intro line rest block _ found
  simp [Progress.start, Progress.block?] at found

theorem Faithful.of_blocks {lines : List Text} {p q : Progress} (faithful : Faithful lines p)
    (same : q.blocks = p.blocks) : Faithful lines q := by
  intro line rest block inside found
  exact faithful line rest block inside (by simpa [Progress.block?, same] using found)

/-- Two places with equally many lines left are the same place. -/
theorem suffix_unique {lines s t : List Text} (hs : s <:+ lines) (ht : t <:+ lines)
    (same : s.length = t.length) : s = t := by
  have inside := List.suffix_of_suffix_length_le hs ht (by omega)
  exact inside.eq_of_length same

theorem Faithful.remember {lines : List Text} {p : Progress} {line : Text} {rest : List Text}
    {block : Option Closed} (faithful : Faithful lines p) (inside : line :: rest <:+ lines)
    (fresh : block = (reread line rest Progress.start).1) :
    Faithful lines (p.remember rest.length block) := by
  intro line' rest' block' inside' found
  by_cases same : rest'.length = rest.length
  · have eq := suffix_unique inside' inside (by simp [same])
    obtain ⟨rfl, rfl⟩ := List.cons.inj eq
    rw [Progress.block?_remember] at found
    rw [← Option.some.inj found, fresh]
  · rw [Progress.block?_remember_of_ne same] at found
    exact faithful line' rest' block' inside' found

/-- Among `lines`, as long as nothing lies too deep, `block` finds what reading anew finds, and
    leaves nothing false behind. -/
def Agrees (lines : List Text) (block : BlockReader) : Prop :=
  ∀ line rest p, line :: rest <:+ lines → Faithful lines p →
    (block line rest p).2.tooDeep = false →
      (block line rest p).1 = (reread line rest Progress.start).1 ∧
        Faithful lines (block line rest p).2

theorem readAt_agrees {lines : List Text} {block : BlockReader} (agrees : Agrees lines block)
    {line : Text} {rest : List Text} {p : Progress} (inside : line :: rest <:+ lines)
    (faithful : Faithful lines p) (fine : (readAt block line rest p).2.2.tooDeep = false) :
    (readAt block line rest p).1 = (readAt reread line rest Progress.start).1 ∧
      (readAt block line rest p).2.1 = (readAt reread line rest Progress.start).2.1 ∧
      Faithful lines (readAt block line rest p).2.2 := by
  cases opens : opensBlock line with
  | true =>
    obtain ⟨statement, taken, deep, blocks⟩ := readAt_opening block opens rest p
    obtain ⟨statement', taken', -⟩ := readAt_opening reread opens rest Progress.start
    obtain ⟨same, kept⟩ := agrees line rest p inside faithful (deep ▸ fine)
    rw [statement, taken, statement', taken', same]
    exact ⟨rfl, rfl, kept.of_blocks blocks⟩
  | false =>
    obtain ⟨statement, taken, -, blocks⟩ := readAt_single block opens rest p
    obtain ⟨statement', taken', -⟩ := readAt_single reread opens rest Progress.start
    rw [statement, taken, statement', taken']
    exact ⟨rfl, rfl, faithful.of_blocks blocks⟩

theorem readBody_agrees {lines : List Text} {block : BlockReader} (agrees : Agrees lines block)
    (proceeds : BlockProceeds block) {inElse : Bool} {skip : Nat} {rest : List Text} {p : Progress}
    (inside : rest <:+ lines) (faithful : Faithful lines p)
    (fine : (readBody block inElse skip rest p).2.tooDeep = false) :
    (readBody block inElse skip rest p).1 = (readBody reread inElse skip rest Progress.start).1 ∧
      Faithful lines (readBody block inElse skip rest p).2 := by
  induction rest generalizing inElse skip p with
  | nil => exact ⟨by simp [readBody], faithful⟩
  | cons line rest ih =>
    have behind : rest <:+ lines := (List.suffix_cons line rest).trans inside
    cases skip with
    | succ skip => exact ih behind faithful fine
    | zero =>
      rcases bodyLine_cases line with rfl | rfl | closes | content
      · rw [readBody_blank] at fine ⊢
        rw [readBody_blank]
        exact ih behind faithful fine
      · rw [readBody_else] at fine ⊢
        rw [readBody_else]
        exact ih behind faithful fine
      · rw [readBody_close _ _ _ _ closes, readBody_close _ _ _ _ closes]
        exact ⟨rfl, faithful⟩
      · rw [readBody_content _ _ _ _ content] at fine ⊢
        rw [readBody_content _ _ _ _ content]
        obtain ⟨statement, taken, kept⟩ := readAt_agrees agrees inside faithful
          ((readBody_proceeds proceeds _ _ _ _).fine fine)
        obtain ⟨same, kept⟩ := ih behind kept fine
        refine ⟨?_, kept⟩
        rw [same, statement, taken, readBody_forgetful reread_forgetful _ _ _ Progress.start]

/-- The memory and the bound are transparent, block by block: the induction is on the levels that
    are left, and what is remembered stays faithful along it. -/
theorem readBlock_agrees (lines : List Text) (levels : Nat) : Agrees lines (readBlock levels) := by
  induction levels with
  | zero =>
    intro line rest p inside faithful fine
    simp only [readBlock] at fine ⊢
    cases known : p.block? rest.length with
    | some block => exact ⟨faithful line rest block inside known, faithful⟩
    | none => simp [known] at fine
  | succ levels ih =>
    intro line rest p inside faithful fine
    simp only [readBlock] at fine ⊢
    cases known : p.block? rest.length with
    | some block => exact ⟨faithful line rest block inside known, faithful⟩
    | none =>
      simp only [known] at fine ⊢
      have behind : rest <:+ lines := (List.suffix_cons line rest).trans inside
      obtain ⟨same, kept⟩ := readBody_agrees ih (readBlock_proceeds levels) behind
        (faithful.of_blocks (q := p.note (conditionCutOffs line)) rfl) fine
      have fresh : (readBody (readBlock levels) false 0 rest (p.note (conditionCutOffs line))).1.map
          (closedBlock line) = (reread line rest Progress.start).1 := by
        rw [reread_eq, same, readBody_forgetful reread_forgetful _ _ _ Progress.start]
      exact ⟨fresh, kept.remember inside fresh⟩

section Unit
variable {block : BlockReader} {kind : PouKind}

theorem readUnitLines_forgetful (forgetful : Forgetful block) (place : UnitPlace) (skip : Nat)
    (lines : List Text) (p q : Progress) :
    (readUnitLines block kind place skip lines p).1 =
      (readUnitLines block kind place skip lines q).1 := by
  induction lines generalizing place skip p q with
  | nil => simp [readUnitLines]
  | cons line rest ih =>
    cases skip with
    | succ skip => exact ih place skip p q
    | zero =>
      rcases frame_cases kind line place with ends | ⟨rfl, other⟩ | ⟨later, declared, frame⟩
      · rw [readUnitLines_terminator _ _ _ ends, readUnitLines_terminator _ _ _ ends]
      · obtain ⟨statement, taken⟩ := readAt_forgetful forgetful line rest p q
        rw [readUnitLines_statement _ _ other, readUnitLines_statement _ _ other, statement, taken,
          ih _ _ _ (readAt block line rest q).2.2]
      · rw [frame.reads, frame.reads, ih later 0 p q]

theorem readUnitLines_agrees {lines : List Text} (agrees : Agrees lines block)
    (proceeds : BlockProceeds block) {place : UnitPlace} {skip : Nat} {rest : List Text} {p : Progress}
    (inside : rest <:+ lines) (faithful : Faithful lines p)
    (fine : (readUnitLines block kind place skip rest p).2.tooDeep = false) :
    (readUnitLines block kind place skip rest p).1 =
      (readUnitLines reread kind place skip rest Progress.start).1 := by
  induction rest generalizing place skip p with
  | nil => simp [readUnitLines]
  | cons line rest ih =>
    have behind : rest <:+ lines := (List.suffix_cons line rest).trans inside
    cases skip with
    | succ skip => exact ih behind faithful fine
    | zero =>
      rcases frame_cases kind line place with ends | ⟨rfl, other⟩ | ⟨later, declared, frame⟩
      · rw [readUnitLines_terminator _ _ _ ends, readUnitLines_terminator _ _ _ ends]
      · rw [readUnitLines_statement _ _ other] at fine ⊢
        obtain ⟨statement, taken, kept⟩ := readAt_agrees agrees inside faithful
          ((readUnitLines_proceeds proceeds _ _ _ _ _).fine fine)
        rw [readUnitLines_statement _ _ other, ih behind kept fine, statement, taken,
          readUnitLines_forgetful reread_forgetful _ _ _ Progress.start]
      · rw [frame.reads] at fine ⊢
        rw [frame.reads, ih behind faithful fine]

end Unit

def rereadPou (kind : PouKind) (header : Text) (rest : List Text) : Pou :=
  (readPouBy reread kind header rest).1

/-- The first unit of a source, read without a memory and without a bound on nesting. -/
def Pou.reread? (source : Text) : Option Pou :=
  (findHeader? (lineTexts source)).map fun (kind, _, header, rest) => rereadPou kind header rest

/-- In the first unit of a source some block lies too deep to be read as one. -/
def hasTooDeepBlock (source : Text) : Bool :=
  (findHeader? (lineTexts source)).any fun (kind, _, header, rest) =>
    (readPou kind header rest).2.tooDeep

theorem readPou_eq_rereadPou {kind : PouKind} {header : Text} {rest : List Text}
    (fine : (readPou kind header rest).2.tooDeep = false) :
    (readPou kind header rest).1 = rereadPou kind header rest := by
  have same := readUnitLines_agrees (readBlock_agrees rest blockLimit)
    (readBlock_proceeds blockLimit) (List.suffix_refl rest) (faithful_start rest) fine
  simp only [readPou, rereadPou, readPouBy, same]

theorem ofSource?_eq_reread? {source : Text} (fine : hasTooDeepBlock source = false) :
    Pou.ofSource? source = Pou.reread? source := by
  simp only [Pou.ofSource?, Reading.ofSource, readLines, Pou.reread?]
  cases found : findHeader? (lineTexts source) with
  | none => rfl
  | some first =>
    obtain ⟨kind, before, header, rest⟩ := first
    have shallow : (readPou kind header rest).2.tooDeep = false := by
      simpa [hasTooDeepBlock, found] using fine
    simp only [Option.map_some, readPou_eq_rereadPou shallow]

/-- The outer block never closes, so the reading goes back and finds the inner one remembered. -/
theorem ofSource?_eq_reread?_unclosed :
    hasTooDeepBlock "PROGRAM P\nIF a THEN\nIF b THEN\nx := y;\nEND_IF\nEND_PROGRAM".toList = false ∧
      Pou.ofSource? "PROGRAM P\nIF a THEN\nIF b THEN\nx := y;\nEND_IF\nEND_PROGRAM".toList =
        Pou.reread? "PROGRAM P\nIF a THEN\nIF b THEN\nx := y;\nEND_IF\nEND_PROGRAM".toList :=
  ⟨by decide, ofSource?_eq_reread? (by decide)⟩

end StructuredText
