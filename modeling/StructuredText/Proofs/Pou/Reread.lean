import StructuredText.Proofs.Conditional.Remembered
import StructuredText.Proofs.Pou.RoundTrip

/- What was read from any source is written, and read from what was written, with its variables
   grouped and its conditionals completed, as long as nothing in it is taken for something else. -/
namespace StructuredText

/-- A declaration whose name would be taken for the beginning or the end of a section, or for the
    end of the unit, is no declaration when blanks part the name from the colon. -/
def Variable.isRestorable (kind : PouKind) (v : Variable) : Bool :=
  !sectionKeywords.contains v.name && v.name ≠ "END_VAR".toList && v.name ≠ kind.terminator

def Statement.isApart : Statement → Bool
  | .assignment target _ => !sectionKeywords.contains target
  | _ => true

def Pou.isRestorable (pou : Pou) : Bool :=
  Statement.areKept pou.statements && pou.statements.all (·.isApart) &&
    Statement.nestingOf pou.statements ≤ blockLimit &&
    pou.declared.all (·.isRestorable pou.kind) && opensNoComment pou.text

def Pou.completed (pou : Pou) : Pou :=
  { pou.grouped with statements := Statement.completedAll pou.statements }

def programWith (lines : List Text) : Text :=
  "PROGRAM P\n".toList ++ lines.flatMap (· ++ ['\n']) ++ "END_PROGRAM".toList

def programText (lines : List String) : Text := programWith (lines.map String.toList)

def negations (n : Nat) (t : Text) : Text := (List.replicate n "NOT ".toList).flatten ++ t

/- What is not restorable comes back as something else: an empty text, an operand that is taken for
   an operator or has parentheses that do not match, an exponent, a comment, a target or a variable
   that is taken for the frame of a section or for the end of the unit. -/
example : ∀ lines ∈ [["x := ();"], ["x := (NOT) AND a;"], ["x := (a AND) OR b;"],
      ["x := (= b) = a;"], ["x := NOT )( AND a;"], ["x := 10000000000000000.0;"], ["f( *b);"],
      ["VAR:=1;"], ["VAR", "VAR: INT;", "END_VAR"], ["VAR", "END_VAR: INT;", "END_VAR"],
      ["VAR", "END_PROGRAM: INT;", "END_VAR"]],
    (Pou.ofSource? (programText lines)).any (fun pou => !pou.isRestorable &&
      !(pou.text?.bind Pou.ofSource?).any pou.completed.same) = true := by
  decide +kernel

/- So does what is cut off: an operand that lies less deep where its chain is written flat, and an
   argument that still looks like a named one. -/
example : ∀ line ∈ ["x := (a AND ".toList ++ negations expressionLimit "c) AND b;".toList,
      "x := ".toList ++ negations expressionLimit "f(a := b := c);".toList],
    (Pou.ofSource? (programWith [line])).any (fun pou => !pou.isRestorable &&
      !(pou.text?.bind Pou.ofSource?).any pou.completed.same) = true := by
  decide +kernel

theorem lineTexts_facts {source line : Text} (mem : line ∈ lineTexts source) :
    '\n' ∉ line ∧ (line ≠ [] → IsTrimmed line) := by
  have clean {number : Nat} {start : Region} {raws : List Text} (oneLine : ∀ raw ∈ raws, '\n' ∉ raw)
      {l : Line} (mem : l ∈ linesFrom number start raws) :
      '\n' ∉ l.text ∧ (l.text ≠ [] → IsTrimmed l.text) := by
    induction raws generalizing number start with
    | nil => contradiction
    | cons raw rest ih =>
      obtain ⟨here, below⟩ := List.forall_mem_cons.mp oneLine
      rcases List.mem_cons.mp mem with rfl | mem
      · refine ⟨fun newline => ?_, isTrimmed_trim⟩
        rcases mem_of_mem_cleanFrom (trim_subset _ newline) with inside | space
        · exact here inside
        · contradiction
      · exact ih below mem
  obtain ⟨l, inside, rfl⟩ := List.mem_map.mp mem
  apply clean _ inside
  intro raw parted newline
  obtain ⟨piece, split, rfl⟩ := List.mem_map.mp parted
  exact (mem_splitOn_facts split).1 ((isPrefix_withoutFinal '\r' piece).subset newline)

/-- A header names nothing, or the unit and perhaps the type of its result. -/
def IsHeading (name : Text) (returnType : Option Text) : Prop :=
  (name = [] ∧ returnType = none) ∨ (Name name ∧ ∀ t ∈ returnType, Name t)

theorem isHeading_headerNames (kind : PouKind) (header : Text) :
    IsHeading (headerNames kind header).1 (headerNames kind header).2 := by
  rw [headerNames]
  split
  · exact Or.inl ⟨rfl, rfl⟩
  · next name rest found =>
    right
    obtain ⟨t, -, word⟩ := Option.bind_eq_some_iff.mp found
    refine ⟨(name_of_word? word).1, ?_⟩
    intro type given
    rw [typeBehindColon?] at given
    obtain ⟨⟨word, behind⟩, found, rfl⟩ := Option.map_eq_some_iff.mp given
    obtain ⟨t, -, word⟩ := Option.bind_eq_some_iff.mp found
    exact (name_of_word? word).1

section Header
variable {pou : Pou} (heading : IsHeading pou.name pou.returnType)
include heading

theorem header_of_isHeading : headerKind? pou.header = some pou.kind ∧
    headerNames pou.kind pou.header = (pou.name, pou.returnType) ∧ IsSolidLine pou.header := by
  rcases heading with ⟨name, type⟩ | ⟨name, type⟩
  · rw [Pou.header, name, type]
    generalize pou.kind = kind
    have solid : IsSolidLine kind.keyword := by
      cases kind <;> exact isSolidLine_fixed (by decide) (of_all rfl)
    cases kind <;> exact ⟨rfl, rfl, solid⟩
  · exact ⟨headerKind?_header name type, headerNames_header name type,
      (isBareLine_header name type).solid⟩

end Header

theorem isSolidLine_text {v : Variable} (name : Name v.name) (type : Name v.type)
    (initial : ∀ t ∈ v.initialValue, '\n' ∉ t) : IsSolidLine v.text where
  oneLine := by
    have word {w : Text} (named : Name w) : '\n' ∉ w := fun mem =>
      absurd (named.letters _ mem) (by decide)
    rw [Variable.text, Variable.ending]
    simp only [List.mem_append, not_or]
    refine ⟨⟨⟨word name, by decide⟩, word type⟩, ?_, by decide⟩
    cases given : v.initialValue with
    | none => exact List.not_mem_nil
    | some value =>
      rw [Option.elim_some, List.mem_append, not_or]
      exact ⟨by decide, initial value given⟩
  trimmed := by
    have semicolon : IsTrimmed [';'] := isTrimmed_of_solid (by simp) (of_all rfl)
    have joined := name.isTrimmed.between semicolon
      (" : ".toList ++ v.type ++ v.initialValue.elim [] (" := ".toList ++ ·))
    simpa [Variable.text, Variable.ending] using joined

theorem areSolid_sections {pou : Pou} (each : ∀ v ∈ pou.declared, IsSolidLine v.text) :
    AreSolid (sections.flatMap fun (role, keyword) => sectionLines keyword (pou.ofRole role)) := by
  intro line mem
  obtain ⟨⟨role, keyword⟩, listed, mem⟩ := List.mem_flatMap.mp mem
  have word : IsSolidLine keyword := by
    have filled : ∀ w ∈ sections.map (·.2), w ≠ [] := by decide
    have solid : ∀ w ∈ sections.map (·.2), ∀ c ∈ w, isBlank c = false :=
      of_all_words (by decide)
    have listed : keyword ∈ sections.map (·.2) := List.mem_map_of_mem listed
    exact isSolidLine_fixed (filled keyword listed) (solid keyword listed)
  have closing : IsSolidLine "END_VAR".toList := isSolidLine_fixed (by decide) (of_all rfl)
  have mem : line ∈ sectionLines keyword (pou.ofRole role) := mem
  rw [sectionLines] at mem
  split at mem
  · contradiction
  · simp only [List.mem_append, List.mem_cons, List.mem_map, List.not_mem_nil, or_false] at mem
    rcases mem with (rfl | ⟨v, inside, rfl⟩) | rfl
    · exact ⟨keyword, rfl, word⟩
    · rw [v.line_eq]
      exact ⟨v.text, rfl, each v (List.mem_of_mem_filter inside)⟩
    · exact ⟨_, rfl, closing⟩

theorem text_of_around {depth : Nat} {before after : Text} {e : Expression} {t : Text}
    (written : (Written.around depth before e after).text = some t) :
    t = before ++ e.text ++ after := by
  rw [Written.around, Expression.text?] at written
  split at written
  · exact (Option.some.inj written).symm
  · contradiction

/-- The first line of a statement that stands in a unit is not taken for another line of it. -/
theorem unitLine_first {s : Statement} (read : s.IsRead) (opens : s.IsOpen)
    (apart : s.isApart = true) {depth : Nat} (solid : AreSolid (s.lines depth)) {first : Text}
    {more : List Text} (texts : textsOf (s.lines depth) = first :: more) (kind : PouKind) :
    UnitLine.of kind first = .other := by
  have begins {w : Written} {rest : List Written} (lines : s.lines depth = w :: rest) :
      w.text = some first := by
    rw [lines] at solid texts
    obtain ⟨t, text, -⟩ := solid w List.mem_cons_self
    rw [textsOf, List.filterMap_cons, text] at texts
    rw [text, (List.cons.inj texts).1]
  cases read with
  | @assignment target t nonempty chars oneLine =>
    have other : target ∉ sectionKeywords := by simpa [Statement.isApart] using apart
    rw [text_of_around (begins rfl)]
    exact unitLine_assignment nonempty chars opens other kind _
  | @call t name blanks inner call noConditional oneLine =>
    have word : Name name := ⟨call.nonempty, call.letters⟩
    rw [text_of_around (begins rfl)]
    exact unitLine_call word opens kind
  | conditional oneLine _ _ =>
    rw [text_of_around (begins rfl)]
    exact unitLine_conditional kind _

theorem readsUnit_allLines (kind : PouKind) {body : List Statement}
    (each : ∀ s ∈ body, s.IsRead ∧ s.IsOpen) (apart : ∀ s ∈ body, s.isApart = true)
    (kept : ∀ s ∈ body, s.isKept = true) :
    AreSolid (Statement.allLines 0 body) ∧
      ReadsUnit kind (Statement.nestingOf body) (textsOf (Statement.allLines 0 body))
        (Statement.completedAll body) := by
  induction body with
  | nil => exact ⟨fun _ mem => absurd mem List.not_mem_nil, readsUnit_nil kind 0⟩
  | cons s rest ih =>
    obtain ⟨⟨read, opens⟩, each⟩ := List.forall_mem_cons.mp each
    obtain ⟨hereApart, apart⟩ := List.forall_mem_cons.mp apart
    obtain ⟨hereKept, kept⟩ := List.forall_mem_cons.mp kept
    obtain ⟨solid, first, more, texts, reads⟩ := isWrittenAs_lines read hereKept 0
    have other := unitLine_first read opens hereApart solid texts kind
    obtain ⟨solidRest, readsRest⟩ := ih each apart kept
    rw [Statement.allLines, textsOf_append, texts]
    refine ⟨List.forall_mem_append.mpr ⟨solid, solidRest⟩, ?_⟩
    exact (reads.deeper (Nat.le_max_left ..)).unit other (readsRest.deeper (Nat.le_max_right ..))

structure Pou.IsRead (pou : Pou) : Prop where
  heading : IsHeading pou.name pou.returnType
  declared : ∀ v ∈ pou.declared, Name v.name ∧ Name v.type ∧
    ∀ t ∈ v.initialValue, IsTrimmed t ∧ '\n' ∉ t
  statements : ∀ s ∈ pou.statements, s.IsRead ∧ s.IsOpen

theorem Pou.isRead_of_ofSource? {source : Text} {pou : Pou}
    (read : Pou.ofSource? source = some pou) : pou.IsRead := by
  rw [Pou.ofSource?, Reading.ofSource, readLines] at read
  cases found : findHeader? (lineTexts source) with
  | none => simp [found] at read
  | some entry =>
    obtain ⟨kind, before, header, rest⟩ := entry
    simp only [found, Option.some.injEq] at read
    have inside := (suffix_of_findHeader? found).subset
    have oneLine : AreOneLine rest := fun line mem => (lineTexts_facts (inside mem)).1
    have gives := (keepsRead_readBlock blockLimit).readUnitLines kind .body 0 oneLine .start
    have origin := declared_readUnitLines (readBlock blockLimit) kind .body 0 rest .start
    simp only [readPou, readPouBy] at read
    obtain ⟨-, statements⟩ := gives isRead_start
    rw [← read]
    refine ⟨isHeading_headerNames kind header, ?_, statements⟩
    intro v mem
    obtain ⟨line, below, role, declares⟩ := origin v mem
    obtain ⟨oneLine, trimmed⟩ := lineTexts_facts (inside below)
    have filled : line ≠ [] := by
      rintro rfl
      contradiction
    obtain ⟨name, type, initial⟩ := ofLine?_facts declares (trimmed filled)
    exact ⟨name, type, fun t mem =>
      ⟨(initial t mem).1, fun newline => oneLine ((initial t mem).2 newline)⟩⟩

section Restorable
variable {pou : Pou} (restorable : pou.isRestorable = true)
include restorable

theorem Pou.facts_of_isRestorable : (∀ s ∈ pou.statements, s.isKept = true) ∧
    (∀ s ∈ pou.statements, s.isApart = true) ∧
    Statement.nestingOf pou.statements ≤ blockLimit ∧
    (∀ v ∈ pou.declared, v.isRestorable pou.kind = true) ∧ opensNoComment pou.text = true := by
  simp only [isRestorable, Bool.and_eq_true, Statement.areKept_iff, List.all_eq_true,
    decide_eq_true_eq] at restorable
  obtain ⟨⟨⟨⟨kept, apart⟩, shallow⟩, declared⟩, clean⟩ := restorable
  exact ⟨kept, apart, shallow, declared, clean⟩

variable (read : pou.IsRead)
include read

theorem Pou.IsRead.isDeclared : ∀ v ∈ pou.declared, v.IsDeclared pou.kind := by
  obtain ⟨-, -, -, declared, -⟩ := facts_of_isRestorable restorable
  intro v mem
  obtain ⟨name, type, initial⟩ := read.declared v mem
  have apart := declared v mem
  simp only [Variable.isRestorable, Bool.and_eq_true, Bool.not_eq_true', List.contains_eq_mem,
    decide_eq_false_iff_not, decide_eq_true_eq] at apart
  exact ⟨name, type, apart.1.1, apart.1.2, apart.2, fun t mem => (initial t mem).1⟩

theorem Pou.IsRead.areSolid : AreSolid pou.lines := by
  obtain ⟨kept, apart, -, -, -⟩ := facts_of_isRestorable restorable
  have header := (header_of_isHeading read.heading).2.2
  have declared := areSolid_sections fun v mem =>
    isSolidLine_text (read.declared v mem).1 (read.declared v mem).2.1
      fun t given => ((read.declared v mem).2.2 t given).2
  have code := (readsUnit_allLines pou.kind read.statements apart kept).1
  have terminator := (isBareLine_terminator pou.kind).solid
  rw [Pou.lines, AreSolid, List.cons_append, List.cons_append, List.forall_mem_cons,
    List.forall_mem_append, List.forall_mem_append, List.forall_mem_singleton]
  exact ⟨⟨_, rfl, header⟩, ⟨declared, code⟩, ⟨_, rfl, terminator⟩⟩

end Restorable

/-- What was read is written, and what was written is read as the same unit, its variables grouped
    and its conditionals completed. -/
theorem Pou.ofSource?_text_of_ofSource? {source : Text} {pou : Pou}
    (found : Pou.ofSource? source = some pou) (restorable : pou.isRestorable = true) :
    pou.text?.bind Pou.ofSource? = some pou.completed := by
  have read := Pou.isRead_of_ofSource? found
  obtain ⟨kept, apart, shallow, -, clean⟩ := facts_of_isRestorable restorable
  have solid := read.areSolid restorable
  obtain ⟨header, names, -⟩ := header_of_isHeading read.heading
  have declared := readUnitLines_sections (readBlock blockLimit)
    (textsOf (Statement.allLines 0 pou.statements) ++ [pou.kind.terminator, []]) Progress.start
    (read.isDeclared restorable) (List.Subset.refl sections)
  have code := ((readsUnit_allLines pou.kind read.statements apart kept).2.deeper shallow)
    blockLimit (Nat.le_refl _) [pou.kind.terminator, []] (Progress.Fresh.start _)
  obtain ⟨q, -, code⟩ := code
  have ends : UnitLine.of pou.kind pou.kind.terminator = .terminator := by
    cases pou.kind <;> rfl
  rw [readUnitLines_terminator _ _ _ ends] at code
  rw [Pou.text?_of_solid solid, Option.bind_some, Pou.ofSource?, Reading.ofSource,
    lineTexts_text_of_clean solid clean, pou.textsOf_lines, readLines, findHeader?, header]
  simp only [readPou, readPouBy, names, declared, declaring, code, List.append_nil]
  rfl

def scatteredProgram : Text :=
  programWith (["VAR", "m : REAL := 2;", "END_VAR", "VAR_INPUT", "a : BOOL;", "END_VAR",
    "m := 1.50;", "IF a", "IF THEN", "IF (a AND NOT b) OR m >= 2 THEN", "Go(m + 1, f(a));",
    "ELSE", "m := a + b;", "END_IF;", "END_IF;"].map String.toList ++
      ["m := ".toList ++ negations (expressionLimit + 1) "(a OR b);".toList])

theorem Pou.ofSource?_text_of_ofSource?_scattered :
    ∃ pou, Pou.ofSource? scatteredProgram = some pou ∧ pou.isRestorable = true ∧
      pou.text?.bind Pou.ofSource? = some pou.completed := by
  have each : (Pou.ofSource? scatteredProgram).any (·.isRestorable) = true := by decide +kernel
  obtain ⟨pou, found, restorable⟩ := (Option.any_eq_true _ _).mp each
  exact ⟨pou, found, restorable, Pou.ofSource?_text_of_ofSource? found restorable⟩

def regroupedPrograms : List Text :=
  [["VAR", "a : INT;", "END_VAR", "VAR_INPUT", "b : INT;", "END_VAR"], ["IF a"],
    ["IF THEN", "x := a;", "END_IF;"]].map programText

theorem Pou.ofSource?_text_regrouped :
    ∀ source ∈ regroupedPrograms, ∃ pou, Pou.ofSource? source = some pou ∧
      pou.isRestorable = true ∧ (pou.text?.bind Pou.ofSource?).any pou.same = false := by
  have each : ∀ source ∈ regroupedPrograms, (Pou.ofSource? source).any (fun pou =>
      pou.isRestorable && !(pou.text?.bind Pou.ofSource?).any pou.same) = true := by
    decide +kernel
  intro source mem
  obtain ⟨pou, found, facts⟩ := (Option.any_eq_true _ _).mp (each source mem)
  rw [Bool.and_eq_true, Bool.not_eq_true'] at facts
  exact ⟨pou, found, facts⟩

/-- The variables of the first of them come back in the order of the sections. -/
theorem Pou.ofSource?_text_swappedSections :
    ∃ pou, Pou.ofSource? (programText
        ["VAR", "a : INT;", "END_VAR", "VAR_INPUT", "b : INT;", "END_VAR"]) = some pou ∧
      pou.isRestorable = true ∧ (pou.text?.bind Pou.ofSource?).any pou.same = false :=
  Pou.ofSource?_text_regrouped _ List.mem_cons_self

end StructuredText
