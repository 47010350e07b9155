import StructuredText.Proofs.Conditional.Account
import StructuredText.Proofs.Conditional.Bracketing
import StructuredText.Proofs.Pou.Reread

/- Every line of a unit's body says one statement or nothing, and the statement tree, a conditional
   before its branches and the then branch before the else branch, is what the lines say one after
   the other, also where blocks lie too deep to be read as such. -/
namespace StructuredText

/-- A statement by itself, nothing being said about the condition and the branches it has. -/
inductive Entry
  | conditional
  | single (statement : Statement)

def Statement.entry : Statement → Entry
  | .conditional .. => .conditional
  | s => .single s

mutual
def Statement.preorder : Statement → List Statement
  | .conditional condition thenBranch elseBranch =>
    .conditional condition thenBranch elseBranch ::
      (Statement.branchPreorder thenBranch ++ Statement.branchPreorder elseBranch)
  | .forLoop body => .forLoop body :: Statement.preorderOf body
  | .whileLoop condition body => .whileLoop condition body :: Statement.preorderOf body
  | s => [s]

def Statement.preorderOf : List Statement → List Statement
  | [] => []
  | s :: rest => s.preorder ++ Statement.preorderOf rest

def Statement.branchPreorder : Option (List Statement) → List Statement
  | none => []
  | some branch => Statement.preorderOf branch
end

def Statement.entries (statements : List Statement) : List Entry :=
  (Statement.preorderOf statements).map Statement.entry

def saidBy? (line : Text) : Option Entry :=
  if opensConditional line then some .conditional else (Statement.ofLine? line).map .single

def lineEntries (lines : List Text) : List Entry := lines.filterMap saidBy?

def isAssignment (line : Text) : Bool := (assignmentParts? (trim (withoutFinal ';' line))).isSome

theorem Statement.preorderOf_append (first second : List Statement) :
    preorderOf (first ++ second) = preorderOf first ++ preorderOf second := by
  induction first with
  | nil => rfl
  | cons s rest ih => rw [List.cons_append, preorderOf, preorderOf, ih, List.append_assoc]

theorem Statement.entries_append (first second : List Statement) :
    entries (first ++ second) = entries first ++ entries second := by
  rw [entries, preorderOf_append, List.map_append, entries, entries]

theorem Statement.entries_closedBlock (line : Text) (body : Branches × Place) :
    entries [(closedBlock line body).statement] =
      .conditional :: (entries body.1.thenBranch ++ entries body.1.elseBranch) := by
  simp [entries, closedBlock, preorderOf, preorder, branchPreorder, entry]

theorem lineEntries_cons (line : Text) (rest : List Text) :
    lineEntries (line :: rest) = (saidBy? line).toList ++ lineEntries rest := by
  rw [lineEntries, List.filterMap_cons]
  cases saidBy? line <;> rfl

theorem lineEntries_append (first second : List Text) :
    lineEntries (first ++ second) = lineEntries first ++ lineEntries second :=
  List.filterMap_append

def IsListed (line : Text) : Prop :=
  Statement.entries (Statement.ofLine? line).toList = (saidBy? line).toList

section Line
variable {line : Text}

theorem exists_append_trim (trimmed : line ≠ [] → IsTrimmed line) :
    ∃ loose, line = trim (withoutFinal ';' line) ++ loose ∧ ∀ c ∈ loose, isWord c = false := by
  have ofBlanks : ∀ t : Text, (∃ c ∈ t.head?, isBlank c = false) →
      ∃ loose, t = trim t ++ loose ∧ ∀ c ∈ loose, isWord c = false := by
    intro t first
    have whole := trimLeft_append first []
    rw [List.append_nil] at whole
    refine ⟨(t.reverse.takeWhile isBlank).reverse, ?_, fun c mem => ?_⟩
    · rw [trim, whole, trimRight, ← List.reverse_append, List.takeWhile_append_dropWhile,
        List.reverse_reverse]
    · exact isWord_of_isBlank (List.mem_takeWhile_imp (List.mem_reverse.mp mem))
  by_cases empty : line = []
  · subst empty
    exact ⟨[], rfl, List.forall_mem_nil _⟩
  · obtain ⟨c, first, inner⟩ := (trimmed empty).first
    by_cases ends : line.getLast? = some ';'
    · obtain ⟨start, rfl⟩ := List.getLast?_eq_some_iff.mp ends
      rw [withoutFinal_append]
      cases start with
      | nil => exact ⟨[';'], rfl, of_all rfl⟩
      | cons d start =>
        obtain ⟨loose, whole, free⟩ := ofBlanks (d :: start) ⟨c, first, inner⟩
        refine ⟨loose ++ [';'], ?_, ?_⟩
        · rw [← List.append_assoc, ← whole]
        · exact List.forall_mem_append.mpr ⟨free, of_all rfl⟩
    · rw [withoutFinal, if_neg ends]
      exact ofBlanks line ⟨c, first, inner⟩

theorem startsWithWord_append {word loose : Text} (letters : ∀ c ∈ word, isWord c = true)
    (free : ∀ c ∈ loose, isWord c = false) (t : Text) :
    startsWithWord word (t ++ loose) = startsWithWord word t := by
  have ends : atWordEnd loose = true := by
    cases loose with
    | nil => rfl
    | cons c loose => simp [atWordEnd, free c List.mem_cons_self]
  induction word generalizing t with
  | nil =>
    cases t with
    | nil => exact ends
    | cons c t => rfl
  | cons d word ih =>
    cases t with
    | cons c t =>
      have next := ih (fun e mem => letters e (List.mem_cons_of_mem d mem)) t
      simp only [startsWithWord, List.cons_append, List.isPrefixOf_cons_cons, List.length_cons,
        List.drop_succ_cons, Bool.and_assoc] at next ⊢
      rw [next]
    | nil =>
      cases loose with
      | nil => rfl
      | cons c loose =>
        have differ : (d == c) = false := by
          rw [beq_eq_false_iff_ne]
          rintro rfl
          have letter := letters d List.mem_cons_self
          rw [free d List.mem_cons_self] at letter
          contradiction
        rw [startsWithWord, List.nil_append, List.isPrefixOf_cons_cons, differ]
        rfl

theorem opensConditional_trim (trimmed : line ≠ [] → IsTrimmed line) :
    opensConditional (trim (withoutFinal ';' line)) = opensConditional line := by
  obtain ⟨loose, whole, free⟩ := exists_append_trim trimmed
  conv_rhs => rw [whole]
  exact (startsWithWord_append (of_all rfl) free _).symm

theorem isListed_of_trimmed (trimmed : line ≠ [] → IsTrimmed line)
    (noTarget : opensConditional line = true → isAssignment line = false) : IsListed line := by
  have opens := opensConditional_trim trimmed
  rw [IsListed, saidBy?, Statement.ofLine?, Clause.ofLine?]
  rw [isAssignment] at noTarget
  generalize trim (withoutFinal ';' line) = t at opens noTarget
  cases begins : opensConditional line with
  | true =>
    have parts := noTarget begins
    rw [Option.isSome_eq_false_iff, Option.isNone_iff_eq_none] at parts
    simp [parts, opens, begins, Clause.statement, Statement.entries, Statement.preorderOf,
      Statement.preorder, Statement.branchPreorder, Statement.entry]
  | false =>
    dsimp only
    split
    · rfl
    · rw [opens, begins, if_neg Bool.false_ne_true]
      cases callParts? t <;> rfl

theorem saidBy_close (closes : closesBlock line = true) : saidBy? line = none := by
  rcases eq_of_closesBlock closes with rfl | rfl <;> rfl

end Line

/-- The statements, listed in preorder, are what the lines say one after the other. -/
def IsListing : Account :=
  fun used statements => Statement.entries statements = lineEntries used

theorem isKept_listing {lines : List Text} (sole : ∀ line ∈ lines, IsListed line) :
    IsListing.IsKept lines where
  nil := rfl
  append := by
    intro first second s t left right
    rw [IsListing, Statement.entries_append, lineEntries_append, left, right]
  silent := by
    rintro line (rfl | rfl | closes)
    · rfl
    · rfl
    · rw [IsListing, lineEntries_cons, saidBy_close closes]
      rfl
  single := by
    intro line mem
    rw [IsListing, lineEntries_cons, sole line mem]
    exact (List.append_nil _).symm
  block := by
    intro line used body opens inner
    rw [opensBlock, Bool.and_eq_true] at opens
    rw [IsListing, Statement.entries_closedBlock, lineEntries_cons, saidBy?, if_pos opens.1,
      ← Statement.entries_append, inner]
    rfl

/-- A block that ends in the lines before a tail without an END_IF does not reach into the tail. -/
theorem exists_of_append_eq {code tail used behind : List Text} (free : CloseFree tail)
    (split : code ++ tail = used ++ behind)
    (closed : used = [] ∨ ∃ front close, used = front ++ [close] ∧ closesBlock close = true) :
    ∃ left, code = used ++ left ∧ behind = left ++ tail := by
  rcases List.append_eq_append_iff.mp split with ⟨more, rfl, tailEq⟩ | ⟨left, codeEq, behindEq⟩
  · rcases closed with none | ⟨front, close, eq, closes⟩
    · obtain ⟨rfl, rfl⟩ := List.append_eq_nil_iff.mp none
      exact ⟨[], rfl, tailEq.symm⟩
    · cases more using List.reverseRecOn with
      | nil => exact ⟨[], by simp, tailEq.symm⟩
      | append_singleton more last =>
        rw [← List.append_assoc] at eq
        obtain ⟨-, rfl⟩ := List.append_inj' eq rfl |>.imp_right List.singleton_inj.mp
        have open_ := free last (by rw [tailEq]; simp)
        rw [closes] at open_
        contradiction
  · exact ⟨left, codeEq, behindEq⟩

theorem readUnitLines_listed {lines tail : List Text} {block : BlockReader} {kind : PouKind}
    (kept : IsListing.IsKept lines) (blocks : TellsBlocks IsListing lines block)
    (free : CloseFree tail) (ends : EndsUnit kind tail) {code : List Text}
    (codes : ∀ line ∈ code, IsCode kind line) (inside : code ++ tail <:+ lines) {p : Progress}
    (told : RemembersTold IsListing lines p) :
    Statement.entries (readUnitLines block kind .body 0 (code ++ tail) p).1.statements =
      lineEntries code := by
  induction size : code.length using Nat.strongRecOn generalizing code p with
  | ind n ih =>
    cases code with
    | nil =>
      rw [List.nil_append, readUnitLines_end ends]
      rfl
    | cons line rest =>
      subst size
      rw [List.cons_append] at inside ⊢
      have behind : rest ++ tail <:+ lines := (List.suffix_cons line _).trans inside
      have codes' : ∀ l ∈ rest, IsCode kind l := fun l mem => codes l (List.mem_cons_of_mem _ mem)
      rcases (codes line List.mem_cons_self).cases with rfl | ⟨closes, stray⟩ | other
      · rw [readUnitLines_empty _ _ _ (unitLine_nil kind)]
        exact ih rest.length (by simp) codes' behind told rfl
      · rw [readUnitLines_stray _ _ stray, lineEntries_cons, saidBy_close closes]
        exact ih rest.length (by simp) codes' behind told rfl
      · rw [readUnitLines_statement _ _ other]
        obtain ⟨⟨used, left, split, resumed, closed, here⟩, told'⟩ := kept.readAt blocks inside told
        obtain ⟨after, rfl, rfl⟩ := exists_of_append_eq free split closed
        rw [readUnitLines_skip, resumed, Statement.entries_append, here, ← List.cons_append,
          lineEntries_append]
        rw [List.append_assoc] at behind
        congr 1
        exact ih after.length (length_behind_lt line used after)
          (fun l mem => codes' l (List.mem_append_right used mem))
          ((List.suffix_append used _).trans behind) told' rfl

/-- What the lines behind a header may look like for each to say its statement: no sections, no
    terminators but END_IF and, on the last line that is not blank, that of the unit. -/
structure HasStatementLines (kind : PouKind) (lines : List Text) : Prop where
  last : ∀ line ∈ (linesFromTerminator kind lines).drop 1, line = []
  sectionFree : ∀ line ∈ linesBeforeTerminator kind lines, opensSection line = false
  terminators : ∀ line ∈ linesBeforeTerminator kind lines, isTerminator line → closesBlock line
  /-- No line that begins with `IF` assigns to a variable of that name. -/
  conditionals : ∀ line ∈ linesBeforeTerminator kind lines,
    opensConditional line → isAssignment line = false

section Lines
variable {kind : PouKind} {lines : List Text} (plain : HasStatementLines kind lines)
include plain

theorem HasStatementLines.isCode : ∀ line ∈ linesBeforeTerminator kind lines, IsCode kind line :=
  fun line mem => isCode_of_outside (eq_false_of_mem_takeWhile mem) (plain.sectionFree line mem)
    (plain.terminators line mem)

theorem HasStatementLines.isListed (trimmed : ∀ line ∈ lines, line ≠ [] → IsTrimmed line) :
    ∀ line ∈ lines, IsListed line := by
  intro line mem
  apply isListed_of_trimmed (trimmed line mem)
  intro begins
  have parts : linesBeforeTerminator kind lines ++ linesFromTerminator kind lines = lines :=
    List.takeWhile_append_dropWhile
  rw [← parts] at mem
  rcases List.mem_append.mp mem with before | behind
  · exact plain.conditionals line before begins
  · rw [noConditional_of_last plain.last line behind] at begins
    contradiction

end Lines

/-- The statements of a unit, listed in preorder, are what the lines of its body say in order: a
    conditional for every line that begins with `IF`, and for any other line the statement that it
    is by itself, if it is one. -/
theorem entries_statements {source : Text} {kind : PouKind} {before : Nat} {header : Text}
    {rest : List Text} (first : findHeader? (lineTexts source) = some (kind, before, header, rest))
    (plain : HasStatementLines kind rest) :
    ∃ pou, Pou.ofSource? source = some pou ∧
      Statement.entries pou.statements = lineEntries (linesBeforeTerminator kind rest) := by
  have trimmed : ∀ line ∈ rest, line ≠ [] → IsTrimmed line := fun line mem =>
    (lineTexts_facts ((suffix_of_findHeader? first).mem mem)).2
  have kept := isKept_listing (plain.isListed trimmed)
  have parts : linesBeforeTerminator kind rest ++ linesFromTerminator kind rest = rest :=
    List.takeWhile_append_dropWhile
  have listed := readUnitLines_listed kept (kept.readBlock blockLimit)
    (closeFree_of_last plain.last) (endsUnit_of_last plain.last) plain.isCode
    (p := Progress.start) (by rw [parts]) (remembersTold_start rest)
  rw [parts] at listed
  refine ⟨(readPou kind header rest).1, ?_, listed⟩
  simp only [Pou.ofSource?, Reading.ofSource, readLines, first]

def crowdedBlocks : List Text :=
  List.replicate (blockLimit + 2) "IF a THEN".toList ++
    ["x := y;", "END_IF", "ELSE", "f(x);", "IF b THEN x := z;", "END_IF;", "y := x;",
      "END_PROGRAM", ""].map String.toList

theorem entries_statements_crowdedBlocks :
    findHeader? (lineTexts ("PROGRAM P".toList ++ crowdedBlocks.flatMap ('\n' :: ·))) =
        some (.program, 0, "PROGRAM P".toList, crowdedBlocks) ∧
      HasStatementLines .program crowdedBlocks ∧
      ∃ pou, Pou.ofSource? ("PROGRAM P".toList ++ crowdedBlocks.flatMap ('\n' :: ·)) = some pou ∧
        Statement.entries pou.statements =
          lineEntries (linesBeforeTerminator .program crowdedBlocks) := by
  have first : findHeader? (lineTexts ("PROGRAM P".toList ++ crowdedBlocks.flatMap ('\n' :: ·))) =
      some (.program, 0, "PROGRAM P".toList, crowdedBlocks) := by decide
  have plain : HasStatementLines .program crowdedBlocks :=
    ⟨by decide, by decide, by decide, by decide⟩
  exact ⟨first, plain, entries_statements first plain⟩

end StructuredText
