import Mathlib.Data.List.Infix
import Mathlib.Data.List.TakeWhile
import StructuredText.Proofs.Conditional.Matching
import StructuredText.Proofs.Text.Boundary

/- A unit's statement tree is that of bracket matching over its lines: what the reader does by going
   ahead and back, with a memory and a bound, one pass with a stack does as well. -/
namespace StructuredText
open BlockStack

def opensSection (line : Text) : Bool := sectionKeywords.contains (firstWord line)

def closesSection (line : Text) : Bool := firstWord line = "END_VAR".toList

def endsUnit (kind : PouKind) (line : Text) : Bool := firstWord line = kind.terminator

def isTerminator (line : Text) : Bool := "END_".toList.isPrefixOf (firstWord line)

def inSectionAfter : (inSection : Bool) → List Text → Bool
  | inSection, [] => inSection
  | inSection, line :: rest =>
    if opensSection line then inSectionAfter true rest
    else if closesSection line then inSectionAfter false rest
    else inSectionAfter inSection rest

def statementLines : (inSection : Bool) → List Text → List Text
  | _, [] => []
  | inSection, line :: rest =>
    if opensSection line then statementLines true rest
    else if closesSection line then statementLines false rest
    else if inSection then statementLines true rest
    else line :: statementLines false rest

def linesBeforeTerminator (kind : PouKind) (lines : List Text) : List Text :=
  lines.takeWhile (! endsUnit kind ·)

def linesFromTerminator (kind : PouKind) (lines : List Text) : List Text :=
  lines.dropWhile (! endsUnit kind ·)

/-- What the lines behind a header may look like for the blocks in them to be plain brackets. -/
structure HasPlainBlocks (kind : PouKind) (lines : List Text) : Prop where
  /-- The terminator is the last line that is not blank. -/
  last : ∀ line ∈ (linesFromTerminator kind lines).drop 1, line = []
  /-- No variable section reaches into the lines from the first IF on, and none opens there. -/
  sectionsClosed : (linesBeforeTerminator kind lines).dropWhile (! opensConditional ·) = [] ∨
    inSectionAfter false
      ((linesBeforeTerminator kind lines).takeWhile (! opensConditional ·)) = false
  sectionFree : ∀ line ∈ (linesBeforeTerminator kind lines).dropWhile (! opensConditional ·),
    opensSection line = false
  /-- The only other terminators are END_IF, and END_VAR before the first IF. -/
  terminatorsBefore : ∀ line ∈ (linesBeforeTerminator kind lines).takeWhile (! opensConditional ·),
    isTerminator line → closesSection line ∨ closesBlock line
  terminatorsFrom : ∀ line ∈ (linesBeforeTerminator kind lines).dropWhile (! opensConditional ·),
    isTerminator line → closesBlock line
  /-- No more blocks are open at once than may be. -/
  shallow : ∀ used, used <+: statementLines false (linesBeforeTerminator kind lines) →
    (run used).opened.length ≤ blockLimit

theorem hasPlainBlocks_iff (kind : PouKind) (lines : List Text) :
    HasPlainBlocks kind lines ↔
      (∀ line ∈ (linesFromTerminator kind lines).drop 1, line = []) ∧
      ((linesBeforeTerminator kind lines).dropWhile (! opensConditional ·) = [] ∨
        inSectionAfter false
          ((linesBeforeTerminator kind lines).takeWhile (! opensConditional ·)) = false) ∧
      (∀ line ∈ (linesBeforeTerminator kind lines).dropWhile (! opensConditional ·),
        opensSection line = false) ∧
      (∀ line ∈ (linesBeforeTerminator kind lines).takeWhile (! opensConditional ·),
        isTerminator line → closesSection line ∨ closesBlock line) ∧
      (∀ line ∈ (linesBeforeTerminator kind lines).dropWhile (! opensConditional ·),
        isTerminator line → closesBlock line) ∧
      ∀ used ∈ (statementLines false (linesBeforeTerminator kind lines)).inits,
        (run used).opened.length ≤ blockLimit := by
  constructor
  · rintro ⟨last, closed, free, before, behind, shallow⟩
    exact ⟨last, closed, free, before, behind,
      fun used mem => shallow used (List.mem_inits used _ |>.mp mem)⟩
  · rintro ⟨last, closed, free, before, behind, shallow⟩
    exact ⟨last, closed, free, before, behind,
      fun used start => shallow used (List.mem_inits used _ |>.mpr start)⟩

instance (kind : PouKind) (lines : List Text) : Decidable (HasPlainBlocks kind lines) :=
  decidable_of_iff _ (hasPlainBlocks_iff kind lines).symm

theorem unitLine_eq (kind : PouKind) (line : Text) :
    UnitLine.of kind line =
      if line.isEmpty then .empty
      else if endsUnit kind line then .terminator
      else if opensSection line then .opensSection (sectionRole? (firstWord line))
      else if closesSection line then .closesSection
      else if isTerminator line then .strayTerminator
      else .other := by
  simp only [UnitLine.of, endsUnit, opensSection, closesSection, isTerminator, decide_eq_true_eq]
  congr

theorem isTerminator_of_closesSection {line : Text} (closes : closesSection line = true) :
    isTerminator line = true := by
  have word : firstWord line = "END_VAR".toList := of_decide_eq_true closes
  rw [isTerminator, word]
  rfl

theorem unitLine_outside {kind : PouKind} {line : Text} (stays : endsUnit kind line = false)
    (opens : opensSection line = false) (closes : closesSection line = false) :
    UnitLine.of kind line =
      if line.isEmpty then .empty else if isTerminator line then .strayTerminator else .other := by
  rw [unitLine_eq, stays, opens, closes]
  rfl

theorem isCode_of_outside {kind : PouKind} {line : Text} (stays : endsUnit kind line = false)
    (opens : opensSection line = false)
    (terminators : isTerminator line = true → closesBlock line = true) : IsCode kind line := by
  cases terminator : isTerminator line with
  | true => exact Or.inr (Or.inr (terminators terminator))
  | false =>
    have closes : closesSection line = false := by
      cases closes : closesSection line with
      | false => rfl
      | true => simp [isTerminator_of_closesSection closes] at terminator
    have shape := unitLine_outside stays opens closes
    rw [terminator] at shape
    cases blank : line.isEmpty with
    | true => exact Or.inl (by rw [shape, blank]; rfl)
    | false => exact Or.inr (Or.inl (by rw [shape, blank]; rfl))

theorem ofLine?_of_closesBlock {line : Text} (closes : closesBlock line = true) :
    Statement.ofLine? line = none := by
  rcases eq_of_closesBlock closes with rfl | rfl <;> rfl

/-- A line before the first IF: no block begins there, and only sections end. -/
structure IsPlain (kind : PouKind) (line : Text) : Prop where
  stays : endsUnit kind line = false
  single : opensBlock line = false
  terminators : isTerminator line = true → closesSection line = true ∨ closesBlock line = true

theorem IsPlain.cases {kind : PouKind} {line : Text} (plain : IsPlain kind line) :
    (opensSection line = true ∧ ∃ role, UnitLine.of kind line = .opensSection role) ∨
      (opensSection line = false ∧ closesSection line = true ∧
        UnitLine.of kind line = .closesSection) ∨
      (opensSection line = false ∧ closesSection line = false ∧ IsCode kind line) := by
  have shape := unitLine_eq kind line
  rw [plain.stays] at shape
  cases opens : opensSection line with
  | true =>
    cases line with
    | nil => contradiction
    | cons c t => exact Or.inl ⟨rfl, _, by rw [shape, opens]; rfl⟩
  | false =>
    cases closes : closesSection line with
    | true =>
      cases line with
      | nil => contradiction
      | cons c t => exact Or.inr (Or.inl ⟨rfl, rfl, by rw [shape, opens, closes]; rfl⟩)
    | false =>
      refine Or.inr (Or.inr ⟨rfl, rfl, isCode_of_outside plain.stays opens ?_⟩)
      intro terminator
      simpa [closes] using plain.terminators terminator

def UnitPlace.inSection : UnitPlace → Bool
  | .body => false
  | .declarations _ => true

theorem UnitPlace.eq_body {place : UnitPlace} (outside : place.inSection = false) :
    place = .body := by
  cases place with
  | body => rfl
  | declarations role => contradiction

def singleStatements (lines : List Text) : List Statement :=
  lines.flatMap fun line => (Statement.ofLine? line).toList

section Sections
variable {line : Text} (inSection : Bool) (rest : List Text)

theorem statementLines_opens (opens : opensSection line = true) :
    statementLines inSection (line :: rest) = statementLines true rest ∧
      inSectionAfter inSection (line :: rest) = inSectionAfter true rest := by
  simp [statementLines, inSectionAfter, opens]

theorem statementLines_closes (opens : opensSection line = false)
    (closes : closesSection line = true) :
    statementLines inSection (line :: rest) = statementLines false rest ∧
      inSectionAfter inSection (line :: rest) = inSectionAfter false rest := by
  simp [statementLines, inSectionAfter, opens, closes]

theorem statementLines_inside (opens : opensSection line = false)
    (closes : closesSection line = false) :
    statementLines true (line :: rest) = statementLines true rest ∧
      inSectionAfter true (line :: rest) = inSectionAfter true rest := by
  simp [statementLines, inSectionAfter, opens, closes]

theorem statementLines_outside (opens : opensSection line = false)
    (closes : closesSection line = false) :
    statementLines false (line :: rest) = line :: statementLines false rest ∧
      inSectionAfter false (line :: rest) = inSectionAfter false rest := by
  simp [statementLines, inSectionAfter, opens, closes]

end Sections

theorem mem_of_mem_statementLines {inSection : Bool} {lines : List Text} {line : Text}
    (mem : line ∈ statementLines inSection lines) : line ∈ lines := by
  induction lines generalizing inSection with
  | nil => contradiction
  | cons l rest ih =>
    rw [statementLines] at mem
    repeat' split at mem
    · exact List.mem_cons_of_mem _ (ih mem)
    · exact List.mem_cons_of_mem _ (ih mem)
    · exact List.mem_cons_of_mem _ (ih mem)
    · rcases List.mem_cons.mp mem with rfl | mem
      · exact List.mem_cons_self
      · exact List.mem_cons_of_mem _ (ih mem)

theorem statementLines_append (inSection : Bool) (first second : List Text) :
    statementLines inSection (first ++ second) =
      statementLines inSection first ++ statementLines (inSectionAfter inSection first) second := by
  induction first generalizing inSection with
  | nil => rfl
  | cons line rest ih =>
    rw [List.cons_append]
    cases opens : opensSection line with
    | true =>
      obtain ⟨lines, after⟩ := statementLines_opens inSection rest opens
      rw [(statementLines_opens inSection (rest ++ second) opens).1, lines, after, ih]
    | false =>
      cases closes : closesSection line with
      | true =>
        obtain ⟨lines, after⟩ := statementLines_closes inSection rest opens closes
        rw [(statementLines_closes inSection (rest ++ second) opens closes).1, lines, after, ih]
      | false =>
        cases inSection with
        | true =>
          obtain ⟨lines, after⟩ := statementLines_inside rest opens closes
          rw [(statementLines_inside (rest ++ second) opens closes).1, lines, after, ih]
        | false =>
          obtain ⟨lines, after⟩ := statementLines_outside rest opens closes
          rw [(statementLines_outside (rest ++ second) opens closes).1, lines, after, ih]
          rfl

theorem statementLines_eq_self {lines : List Text}
    (outside : ∀ line ∈ lines, opensSection line = false ∧ closesSection line = false) :
    statementLines false lines = lines := by
  induction lines with
  | nil => rfl
  | cons line rest ih =>
    obtain ⟨opens, closes⟩ := outside line (by simp)
    rw [(statementLines_outside rest opens closes).1, ih (fun l mem => outside l (by simp [mem]))]

theorem IsCode.cases {kind : PouKind} {line : Text} (code : IsCode kind line) :
    line = [] ∨ (closesBlock line = true ∧ UnitLine.of kind line = .strayTerminator) ∨
      UnitLine.of kind line = .other := by
  rcases code with empty | other | closes
  · exact Or.inl (eq_nil_of_unitLine_empty empty)
  · exact Or.inr (Or.inr other)
  · exact Or.inr (Or.inl ⟨closes, unitLine_of_closesBlock kind closes⟩)

theorem inSectionAfter_cons (inSection : Bool) (line : Text) (rest : List Text) :
    inSectionAfter inSection (line :: rest) =
      inSectionAfter (inSectionAfter inSection [line]) rest := by
  simp only [inSectionAfter]
  split
  · rfl
  · split
    · rfl
    · rfl

/-- Reading the lines goes on behind them at another place, with what they declare and say and with
    no block met. -/
structure LeadsTo (block : BlockReader) (kind : PouKind) (lines : List Text)
    (place later : UnitPlace) (p q : Progress) (declared : List Variable)
    (statements : List Statement) : Prop where
  deep : q.tooDeep = p.tooDeep
  blocks : q.blocks = p.blocks
  read : ∀ rest, readUnitLines block kind place 0 (lines ++ rest) p =
    (⟨declared ++ (readUnitLines block kind later 0 rest q).1.declared,
        statements ++ (readUnitLines block kind later 0 rest q).1.statements⟩,
      (readUnitLines block kind later 0 rest q).2)

section Leads
variable {block : BlockReader} {kind : PouKind} {line : Text} {place later : UnitPlace}

theorem IsFrame.leadsTo {declared : List Variable} (frame : IsFrame kind line place later declared)
    (p : Progress) : LeadsTo block kind [line] place later p p declared [] :=
  ⟨rfl, rfl, fun rest => frame.reads block rest p⟩

theorem leadsTo_single (other : UnitLine.of kind line = .other) (single : opensBlock line = false)
    (p : Progress) :
    LeadsTo block kind [line] .body .body p (readSingle line p).2 []
      (Statement.ofLine? line).toList := by
  refine ⟨readSingle_tooDeep line p, readSingle_blocks line p, fun rest => ?_⟩
  rw [List.singleton_append, readUnitLines_statement _ _ other, readAt_eq_of_single single]
  rfl

theorem LeadsTo.append {lines lines' : List Text} {last : UnitPlace} {p q r : Progress}
    {declared declared' : List Variable} {statements statements' : List Statement}
    (first : LeadsTo block kind lines place later p q declared statements)
    (second : LeadsTo block kind lines' later last q r declared' statements') :
    LeadsTo block kind (lines ++ lines') place last p r (declared ++ declared')
      (statements ++ statements') := by
  refine ⟨second.deep.trans first.deep, second.blocks.trans first.blocks, fun rest => ?_⟩
  rw [List.append_assoc, first.read, second.read, List.append_assoc, List.append_assoc]

/-- A plain line leads out of a section or into one as the line itself says. -/
theorem leadsTo_plainLine (plain : IsPlain kind line) (place : UnitPlace) (p : Progress) :
    ∃ later q declared, later.inSection = inSectionAfter place.inSection [line] ∧
      LeadsTo block kind [line] place later p q declared
        (singleStatements (statementLines place.inSection [line])) := by
  rcases plain.cases with ⟨opens, role, is⟩ | ⟨opens, closes, is⟩ | ⟨opens, closes, code⟩
  · obtain ⟨outside, inside⟩ := statementLines_opens place.inSection [] opens
    have frame := isFrame_of_reads fun _ rest p => readUnitLines_opensSection place rest p is
    rw [outside, inside]
    exact ⟨_, p, [], rfl, frame.leadsTo p⟩
  · obtain ⟨outside, inside⟩ := statementLines_closes place.inSection [] opens closes
    have frame := isFrame_of_reads fun _ rest p => readUnitLines_closesSection place rest p is
    rw [outside, inside]
    exact ⟨_, p, [], rfl, frame.leadsTo p⟩
  · cases place with
    | declarations role =>
      obtain ⟨outside, inside⟩ := statementLines_inside [] opens closes
      rw [UnitPlace.inSection, outside, inside]
      rcases code.cases with rfl | is
      · have frame := isFrame_of_reads fun _ rest p =>
          readUnitLines_empty (.declarations role) rest p (unitLine_nil kind)
        exact ⟨_, p, [], rfl, frame.leadsTo p⟩
      · exact ⟨_, p, _, rfl, rfl, rfl, fun rest =>
          readUnitLines_declaration rest p role (is.imp And.right id)⟩
    | body =>
      obtain ⟨outside, inside⟩ := statementLines_outside [] opens closes
      rw [UnitPlace.inSection, outside, inside, statementLines, singleStatements,
        List.flatMap_singleton]
      rcases code.cases with rfl | ⟨closes, is⟩ | is
      · have frame := isFrame_of_reads fun _ rest p =>
          readUnitLines_empty .body rest p (unitLine_nil kind)
        exact ⟨_, p, [], rfl, frame.leadsTo p⟩
      · have frame := isFrame_of_reads fun _ rest p => readUnitLines_stray rest p is
        rw [ofLine?_of_closesBlock closes]
        exact ⟨_, p, [], rfl, frame.leadsTo p⟩
      · exact ⟨_, _, [], rfl, leadsTo_single is plain.single p⟩

theorem leadsTo_plain {lines : List Text} (plain : ∀ line ∈ lines, IsPlain kind line)
    (place : UnitPlace) (p : Progress) :
    ∃ later q declared, later.inSection = inSectionAfter place.inSection lines ∧
      LeadsTo block kind lines place later p q declared
        (singleStatements (statementLines place.inSection lines)) := by
  induction lines generalizing place p with
  | nil => exact ⟨place, p, [], rfl, rfl, rfl, fun rest => rfl⟩
  | cons line lines ih =>
    obtain ⟨here, plain'⟩ := List.forall_mem_cons.mp plain
    obtain ⟨middle, q, declared, turns, first⟩ := leadsTo_plainLine here place p
    obtain ⟨later, r, declared', ends, second⟩ := ih plain' middle q
    refine ⟨later, r, declared ++ declared', ?_, ?_⟩
    · rw [inSectionAfter_cons, ← turns, ends]
    · rw [← List.singleton_append, statementLines_append, ← turns, singleStatements,
        List.flatMap_append]
      exact first.append second

end Leads

theorem foldl_step_single {lines : List Text} (single : ∀ line ∈ lines, opensBlock line = false)
    (before : List Statement) :
    lines.foldl step ⟨before, []⟩ = ⟨before ++ singleStatements lines, []⟩ := by
  induction lines generalizing before with
  | nil => simp [singleStatements]
  | cons line rest ih =>
    have inner : ∀ l ∈ rest, opensBlock l = false := fun l mem => single l (by simp [mem])
    rw [List.foldl_cons, singleStatements, List.flatMap_cons]
    rcases bodyLine_cases line with rfl | rfl | closes | content
    · rw [step_blank, ih inner]
      rfl
    · rw [step_else, turn, ih inner]
      rfl
    · rw [step_close _ closes, close, ih inner, ofLine?_of_closesBlock closes]
      rfl
    · rw [step_single _ content (single line (by simp)), put, ih inner, List.append_assoc]
      rfl

theorem eq_false_of_mem_takeWhile {lines : List Text} {test : Text → Bool} {line : Text}
    (mem : line ∈ lines.takeWhile (! test ·)) : test line = false := by
  simpa using List.mem_takeWhile_imp mem

theorem opensBlock_of_opensConditional {line : Text} (opens : opensConditional line = false) :
    opensBlock line = false := by
  simp [opensBlock, opens]

theorem firstWord_cons {c : Char} (inner : isBlank c = false) (other : c ≠ ';') (t : Text) :
    firstWord (c :: t) = c :: withoutTrailing ';' (t.takeWhile (! isBlank ·)) := by
  rw [firstWord, trimLeft_cons inner, List.takeWhile_cons_of_pos (by simp [inner]),
    withoutTrailing_cons other]

theorem opensConditional_of_endsUnit {kind : PouKind} {line : Text}
    (ends : endsUnit kind line = true) : opensConditional line = false := by
  cases opens : opensConditional line with
  | false => rfl
  | true =>
    simp only [opensConditional, startsWithWord, Bool.and_eq_true] at opens
    obtain ⟨t, rfl⟩ := List.isPrefixOf_iff_prefix.mp opens.1
    have first : firstWord ("IF".toList ++ t) = kind.terminator := of_decide_eq_true ends
    have begins := firstWord_cons (c := 'I') (by decide) (by decide) ('F' :: t)
    have differ := begins.symm.trans first
    simp [PouKind.terminator] at differ

theorem unitLine_of_endsUnit {kind : PouKind} {line : Text} (ends : endsUnit kind line = true) :
    UnitLine.of kind line = .terminator := by
  rw [unitLine_eq, ends]
  cases line with
  | nil => cases kind <;> contradiction
  | cons c t => rfl

theorem not_closesBlock_of_endsUnit {kind : PouKind} {line : Text}
    (ends : endsUnit kind line = true) : closesBlock line = false := by
  cases closes : closesBlock line with
  | false => rfl
  | true =>
    have terminator := unitLine_of_endsUnit ends
    rw [unitLine_of_closesBlock kind closes] at terminator
    contradiction

section Tail
variable {kind : PouKind} {lines : List Text}
  (last : ∀ line ∈ (linesFromTerminator kind lines).drop 1, line = [])
include last

theorem linesFromTerminator_cases : linesFromTerminator kind lines = [] ∨
    ∃ line rest, linesFromTerminator kind lines = line :: rest ∧ endsUnit kind line = true ∧
      ∀ l ∈ rest, l = [] := by
  cases found : linesFromTerminator kind lines with
  | nil => exact Or.inl rfl
  | cons line rest =>
    refine Or.inr ⟨line, rest, rfl, ?_, ?_⟩
    · have stops := List.head?_dropWhile_not (! endsUnit kind ·) lines
      rw [linesFromTerminator] at found
      simpa [found] using stops
    · simpa [found] using last

theorem mem_linesFromTerminator {line : Text} (mem : line ∈ linesFromTerminator kind lines) :
    endsUnit kind line = true ∨ line = [] := by
  rcases linesFromTerminator_cases last with none | ⟨terminator, rest, found, ends, blank⟩
  · simp [none] at mem
  · rw [found] at mem
    rcases List.mem_cons.mp mem with rfl | behind
    · exact Or.inl ends
    · exact Or.inr (blank line behind)

theorem endsUnit_of_last : EndsUnit kind (linesFromTerminator kind lines) := by
  rcases linesFromTerminator_cases last with none | ⟨line, rest, found, ends, -⟩
  · exact Or.inl none
  · exact Or.inr ⟨line, rest, found, unitLine_of_endsUnit ends⟩

theorem closeFree_of_last : CloseFree (linesFromTerminator kind lines) := by
  intro l mem
  rcases mem_linesFromTerminator last mem with ends | rfl
  · exact not_closesBlock_of_endsUnit ends
  · rfl

theorem noConditional_of_last :
    ∀ line ∈ linesFromTerminator kind lines, opensConditional line = false := by
  intro l mem
  rcases mem_linesFromTerminator last mem with ends | rfl
  · exact opensConditional_of_endsUnit ends
  · rfl

end Tail

section Parts
variable {kind : PouKind} {lines : List Text} (plain : HasPlainBlocks kind lines)

def declarationPart (kind : PouKind) (lines : List Text) : List Text :=
  (linesBeforeTerminator kind lines).takeWhile (! opensConditional ·)

def codePart (kind : PouKind) (lines : List Text) : List Text :=
  (linesBeforeTerminator kind lines).dropWhile (! opensConditional ·)

theorem parts_append (kind : PouKind) (lines : List Text) :
    declarationPart kind lines ++ (codePart kind lines ++ linesFromTerminator kind lines) =
      lines := by
  rw [← List.append_assoc, declarationPart, codePart, List.takeWhile_append_dropWhile,
    linesBeforeTerminator, linesFromTerminator, List.takeWhile_append_dropWhile]

include plain

theorem HasPlainBlocks.isPlain : ∀ line ∈ declarationPart kind lines, IsPlain kind line := by
  intro line mem
  refine ⟨?_, ?_, ?_⟩
  · exact eq_false_of_mem_takeWhile ((List.takeWhile_prefix _).mem mem)
  · exact opensBlock_of_opensConditional (eq_false_of_mem_takeWhile mem)
  · exact plain.terminatorsBefore line mem

theorem HasPlainBlocks.outside : ∀ line ∈ codePart kind lines,
    opensSection line = false ∧ closesSection line = false := by
  intro line mem
  refine ⟨plain.sectionFree line mem, ?_⟩
  cases closes : closesSection line with
  | false => rfl
  | true =>
    have both := plain.terminatorsFrom line mem (isTerminator_of_closesSection closes)
    rcases eq_of_closesBlock both with rfl | rfl <;> contradiction

theorem HasPlainBlocks.isCode : ∀ line ∈ codePart kind lines, IsCode kind line := by
  intro line mem
  have inside : line ∈ linesBeforeTerminator kind lines := (List.dropWhile_suffix _).mem mem
  exact isCode_of_outside (eq_false_of_mem_takeWhile inside) (plain.sectionFree line mem)
    (plain.terminatorsFrom line mem)

theorem HasPlainBlocks.statementLines_eq :
    statementLines false (linesBeforeTerminator kind lines) =
      statementLines false (declarationPart kind lines) ++ codePart kind lines := by
  have split : linesBeforeTerminator kind lines =
      declarationPart kind lines ++ codePart kind lines :=
    List.takeWhile_append_dropWhile.symm
  rw [split, statementLines_append]
  rcases plain.sectionsClosed with none | closed
  · rw [codePart, none]
    rfl
  · rw [declarationPart, closed, statementLines_eq_self plain.outside]

end Parts

theorem readUnitLines_eq_run {kind : PouKind} {lines : List Text}
    (plain : HasPlainBlocks kind lines) :
    (readUnitLines (readBlock blockLimit) kind .body 0 lines Progress.start).1.statements =
      (run (statementLines false (linesBeforeTerminator kind lines))).statements := by
  obtain ⟨after, q, declared, ends, deep, blocks, read⟩ :=
    leadsTo_plain plain.isPlain .body Progress.start
  have whole := read (codePart kind lines ++ linesFromTerminator kind lines)
  have before : run (statementLines false (declarationPart kind lines)) =
      empty.put (singleStatements (statementLines false (declarationPart kind lines))) := by
    apply foldl_step_single
    intro line mem
    exact (plain.isPlain line (mem_of_mem_statementLines mem)).single
  rw [parts_append] at whole
  rw [whole, plain.statementLines_eq, run_append, before, statements_foldl_put]
  apply congrArg (singleStatements (statementLines false (declarationPart kind lines)) ++ ·)
  rcases plain.sectionsClosed with none | closed
  · have noCode : codePart kind lines = [] := none
    rw [noCode, List.nil_append, readUnitLines_end (endsUnit_of_last plain.last)]
    rfl
  · have outside : after = .body := UnitPlace.eq_body (ends.trans closed)
    subst outside
    have inside : codePart kind lines ++ linesFromTerminator kind lines <:+ lines :=
      ⟨declarationPart kind lines, parts_append kind lines⟩
    have faithful : Faithful lines q := (faithful_start lines).of_blocks blocks
    have shallow : StaysWithin blockLimit (run (statementLines false (declarationPart kind lines)))
        (codePart kind lines) := by
      intro used start
      have bound := plain.shallow (statementLines false (declarationPart kind lines) ++ used) (by
        rw [plain.statementLines_eq]
        exact (List.prefix_append_right_inj _).mpr start)
      rwa [run_append] at bound
    have single : ∀ line ∈ linesFromTerminator kind lines, opensBlock line = false := fun line mem =>
      opensBlock_of_opensConditional (noConditional_of_last plain.last line mem)
    rw [readUnitLines_code (closeFree_of_last plain.last) single (endsUnit_of_last plain.last)
      plain.isCode inside shallow deep faithful]

theorem statements_eq_run {source : Text} {kind : PouKind} {before : Nat} {header : Text}
    {rest : List Text} (first : findHeader? (lineTexts source) = some (kind, before, header, rest))
    (plain : HasPlainBlocks kind rest) :
    ∃ pou, Pou.ofSource? source = some pou ∧
      pou.statements =
        (run (statementLines false (linesBeforeTerminator kind rest))).statements := by
  refine ⟨(readPou kind header rest).1, ?_, ?_⟩
  · simp only [Pou.ofSource?, Reading.ofSource, readLines, first]
  · rw [← readUnitLines_eq_run plain]
    rfl

def mixedBlocks : List Text :=
  ["VAR", "x : INT;", "END_VAR", "x := a;", "IF a THEN", "IF b THEN", "x := y;", "ELSE", "x := z;",
    "END_IF;", "END_IF", "END_IF", "IF c THEN", "x := w;", "END_PROGRAM"].map String.toList

theorem statements_eq_run_mixedBlocks :
    findHeader? (lineTexts ("PROGRAM P".toList ++ mixedBlocks.flatMap ('\n' :: ·))) =
        some (.program, 0, "PROGRAM P".toList, mixedBlocks) ∧
      HasPlainBlocks .program mixedBlocks ∧
      ∃ pou, Pou.ofSource? ("PROGRAM P".toList ++ mixedBlocks.flatMap ('\n' :: ·)) = some pou ∧
        pou.statements =
          (run (statementLines false (linesBeforeTerminator .program mixedBlocks))).statements := by
  have first : findHeader? (lineTexts ("PROGRAM P".toList ++ mixedBlocks.flatMap ('\n' :: ·))) =
      some (.program, 0, "PROGRAM P".toList, mixedBlocks) := by decide
  have plain : HasPlainBlocks .program mixedBlocks := by decide
  exact ⟨first, plain, statements_eq_run first plain⟩

end StructuredText
