import StructuredText.Proofs.Conditional.Provenance
import StructuredText.Proofs.Source.Lines
import StructuredText.Proofs.Validation.Nesting

/- The reader and the validator find the same blocks as long as they agree on the single lines.  The
   validator's stack never has fewer IFs open than the reader has blocks, so where it ends empty
   no block of the reader stays open. -/
namespace StructuredText
open UnitStack

/-- What the validator takes for an END_IF is one for the reader, and what the reader takes for the
    first line of a block is one for the validator. -/
structure HasExactEnds (lines : List Text) : Prop where
  ends : ∀ line ∈ lines, endsIf line = true → closesBlock line = true
  opens : ∀ line ∈ lines, opensBlock line = true → containsWord "END_IF".toList line = false

instance (lines : List Text) : Decidable (HasExactEnds lines) :=
  decidable_of_iff
    ((∀ line ∈ lines, endsIf line = true → closesBlock line = true) ∧
      ∀ line ∈ lines, opensBlock line = true → containsWord "END_IF".toList line = false)
    ⟨fun ⟨ends, opens⟩ => ⟨ends, opens⟩, fun exact_ => ⟨exact_.ends, exact_.opens⟩⟩

theorem opensConditional_of_opensBlock {line : Text} (opens : opensBlock line = true) :
    opensConditional line = true := ((Bool.and_eq_true _ _).mp opens).1

theorem endsIf_of_closesBlock {line : Text} (closes : closesBlock line = true) :
    endsIf line = true := by
  rcases eq_of_closesBlock closes with rfl | rfl <;> decide

theorem HasExactEnds.mono {lines more : List Text} (exact_ : HasExactEnds more)
    (inside : lines ⊆ more) : HasExactEnds lines :=
  ⟨fun line mem => exact_.ends line (inside mem), fun line mem => exact_.opens line (inside mem)⟩

/-- A line closes the innermost IF for both, opens one for the validator, or opens and closes none
    for either. -/
theorem openAfter_cases {line : Line} (exact_ : HasExactEnds [line.text])
    {stack : List OpenConstruct} (clean : nestingFindings stack [line] = []) :
    (closesBlock line.text = true ∧
        ∃ top, openIfs stack = top :: openIfs (openAfter stack line)) ∨
      (closesBlock line.text = false ∧ opened? line.text = some .ifBlock ∧
        openIfs (openAfter stack line) = ⟨.ifBlock, line.number⟩ :: openIfs stack) ∨
      (closesBlock line.text = false ∧ opensBlock line.text = false ∧
        openIfs (openAfter stack line) = openIfs stack) := by
  unfold nestingFindings nestingFindings at clean
  unfold openAfter
  cases blank : line.text.isEmpty with
  | true =>
    rw [List.isEmpty_iff.mp blank]
    exact Or.inr (Or.inr ⟨rfl, rfl, rfl⟩)
  | false =>
    have clean' : (checkNesting line stack).1 = [] := by simpa [blank] using clean
    have here : line.text ∈ [line.text] := List.mem_singleton_self _
    simp only [Bool.false_eq_true, if_false]
    cases ends : endsIf line.text with
    | true => exact Or.inl ⟨exact_.ends _ here ends, openIfs_of_endsIf clean' ends⟩
    | false =>
      have stays : closesBlock line.text = false := by
        cases closes : closesBlock line.text with
        | false => rfl
        | true =>
          rw [endsIf_of_closesBlock closes] at ends
          contradiction
      by_cases opens : opened? line.text = some .ifBlock
      · exact Or.inr (Or.inl ⟨stays, opens, openIfs_of_opens clean' opens⟩)
      · refine Or.inr (Or.inr ⟨stays, ?_, openIfs_of_other clean' ends opens⟩)
        cases block : opensBlock line.text with
        | false => rfl
        | true =>
          have begins := opensConditional_of_opensBlock block
          exact absurd (opened?_eq_ifBlock.mpr ⟨begins, exact_.opens _ here block⟩) opens

theorem depthAfter_le_openIfs {line : Line} (exact_ : HasExactEnds [line.text])
    {stack : List OpenConstruct} (clean : nestingFindings stack [line] = []) {depth : Nat}
    (below : depth ≤ (openIfs stack).length) :
    depthAfter depth line.text ≤ (openIfs (openAfter stack line)).length := by
  unfold depthAfter
  rcases openAfter_cases exact_ clean with
    ⟨closes, top, shrinks⟩ | ⟨stays, -, grows⟩ | ⟨stays, single, same⟩
  · rw [shrinks, List.length_cons] at below
    rw [if_pos closes]
    omega
  · rw [if_neg (by simp [stays]), grows, List.length_cons]
    split <;> omega
  · rw [if_neg (by simp [stays]), if_neg (by simp [single]), same]
    exact below

theorem foldl_depthAfter_le {lines : List Line} (exact_ : HasExactEnds (lines.map (·.text)))
    {stack : List OpenConstruct} (clean : nestingFindings stack lines = []) {depth : Nat}
    (below : depth ≤ (openIfs stack).length) :
    (lines.map (·.text)).foldl depthAfter depth ≤ (openIfs (openBehind stack lines)).length := by
  induction lines generalizing stack depth with
  | nil => exact below
  | cons line rest ih =>
    rw [← List.singleton_append, nestingFindings_append] at clean
    obtain ⟨here, later⟩ := List.append_eq_nil_iff.mp clean
    have first : HasExactEnds [line.text] := exact_.mono (by simp)
    have others : HasExactEnds (rest.map (·.text)) := exact_.mono (by simp)
    exact ih others later (depthAfter_le_openIfs first here below)

def HasPlainIfs (kind : PouKind) : UnitStack → List Text → Prop
  | _, [] => True
  | s, line :: rest =>
    (opened? line = some .ifBlock →
      opensBlock line = true ∧ (s.blocks.opened = [] → s.inSection = false)) ∧
    HasPlainIfs kind (s.step kind line) rest

instance decidableHasPlainIfs (kind : PouKind) :
    ∀ s lines, Decidable (HasPlainIfs kind s lines)
  | _, [] => isTrue trivial
  | s, line :: rest =>
    have := decidableHasPlainIfs kind (s.step kind line) rest
    inferInstanceAs (Decidable (_ ∧ _))

theorem HasPlainIfs.left {kind : PouKind} {s : UnitStack} {first second : List Text}
    (plain : HasPlainIfs kind s (first ++ second)) : HasPlainIfs kind s first := by
  induction first generalizing s with
  | nil => trivial
  | cons line rest ih => exact ⟨plain.1, ih plain.2⟩

theorem unitLine_of_opensConditional (kind : PouKind) {line : Text}
    (opens : opensConditional line = true) : UnitLine.of kind line = .other := by
  have stays : endsUnit kind line = false := by
    cases ends : endsUnit kind line with
    | false => rfl
    | true =>
      rw [opensConditional_of_endsUnit ends] at opens
      contradiction
  obtain ⟨rest, rfl, -⟩ := eq_append_of_startsWithWord opens
  obtain ⟨w, word⟩ : ∃ w, firstWord ("IF".toList ++ rest) = 'I' :: w :=
    ⟨_, firstWord_cons (by decide) (by decide) ('F' :: rest)⟩
  have sections : opensSection ("IF".toList ++ rest) = false := by
    rw [opensSection, word]
    rfl
  have terminator : isTerminator ("IF".toList ++ rest) = false := by
    rw [isTerminator, word]
    rfl
  have closes : closesSection ("IF".toList ++ rest) = false := by
    cases closes : closesSection ("IF".toList ++ rest) with
    | false => rfl
    | true =>
      rw [isTerminator_of_closesSection closes] at terminator
      contradiction
  rw [unitLine_outside stays sections closes, terminator]
  rfl

def openIfLines (texts : List Text) (stack : List OpenConstruct) : List (Option Text) :=
  (openIfs stack).map fun o => texts[o.line - 1]?

theorem openIfLines_openAfter {kind : PouKind} {s : UnitStack} {line : Line} {texts : List Text}
    (here : texts[line.number - 1]? = some line.text) (exact_ : HasExactEnds [line.text])
    {stack : List OpenConstruct} (clean : nestingFindings stack [line] = [])
    (plain : HasPlainIfs kind s [line.text]) (going : (s.step kind line.text).ended = false)
    (same : s.blocks.openLines.map some = openIfLines texts stack) :
    (s.step kind line.text).blocks.openLines.map some =
      openIfLines texts (openAfter stack line) := by
  have isIf (block : opensBlock line.text = true) : opened? line.text = some .ifBlock :=
    opened?_eq_ifBlock.mpr ⟨opensConditional_of_opensBlock block,
      exact_.opens _ (List.mem_singleton_self _) block⟩
  have moved := openLines_unitStep kind line.text going
    (fun block => unitLine_of_opensConditional kind (opensConditional_of_opensBlock block))
    (fun block => (plain.1 (isIf block)).2)
  unfold openLinesAfter at moved
  unfold openIfLines at same ⊢
  rcases openAfter_cases exact_ clean with
    ⟨closes, top, shrinks⟩ | ⟨stays, opens, grows⟩ | ⟨stays, single, unchanged⟩
  · rw [if_pos closes] at moved
    rw [shrinks, List.map_cons] at same
    rw [moved, List.map_tail, same, List.tail_cons]
  · rw [if_neg (by simp [stays]), if_pos (plain.1 opens).1] at moved
    rw [moved, grows, List.map_cons, List.map_cons, same, here]
  · rw [if_neg (by simp [stays]), if_neg (by simp [single])] at moved
    rw [moved, unchanged, same]

theorem openIfLines_openBehind {kind : PouKind} {s : UnitStack} {lines : List Line}
    {texts : List Text} (inside : ∀ line ∈ lines, texts[line.number - 1]? = some line.text)
    (exact_ : HasExactEnds (lines.map (·.text))) {stack : List OpenConstruct}
    (clean : nestingFindings stack lines = []) (plain : HasPlainIfs kind s (lines.map (·.text)))
    (going : ((lines.map (·.text)).foldl (step kind) s).ended = false)
    (same : s.blocks.openLines.map some = openIfLines texts stack) :
    ((lines.map (·.text)).foldl (step kind) s).blocks.openLines.map some =
      openIfLines texts (openBehind stack lines) := by
  induction lines generalizing s stack with
  | nil => exact same
  | cons line rest ih =>
    rw [← List.singleton_append, nestingFindings_append] at clean
    obtain ⟨first, later⟩ := List.append_eq_nil_iff.mp clean
    have going' : (s.step kind line.text).ended = false := by
      cases ended : (s.step kind line.text).ended with
      | false => rfl
      | true =>
        rw [List.map_cons, List.foldl_cons, foldl_ended kind ended, ended] at going
        contradiction
    have moved := openIfLines_openAfter (inside line List.mem_cons_self)
      (exact_.mono (by simp)) first ⟨plain.1, trivial⟩ going' same
    exact ih (fun l mem => inside l (List.mem_cons_of_mem _ mem)) (exact_.mono (by simp)) later
      plain.2 going moved

structure UnitLines (source : Text) (kind : PouKind) (before : Nat) (rest : List Text)
    (lead : List Line) (header : Line) (body : List Line) : Prop where
  split : sourceLines source = lead ++ header :: body
  length : lead.length = before
  isHeader : headerKind? header.text = some kind
  texts : body.map (·.text) = rest

theorem exists_unitLines {source : Text} {kind : PouKind} {before : Nat} {header : Text}
    {rest : List Text}
    (first : findHeader? (lineTexts source) = some (kind, before, header, rest)) :
    ∃ lead line body, UnitLines source kind before rest lead line body := by
  obtain ⟨isHeader, lead, split, length⟩ := findHeader?_split first
  obtain ⟨lead', behind, split', rfl, behindTexts⟩ := List.map_eq_append_iff.mp split
  obtain ⟨line, body, rfl, rfl, texts⟩ := List.map_eq_cons_iff.mp behindTexts
  rw [List.length_map] at length
  exact ⟨lead', line, body, split', length, isHeader, texts⟩

theorem openIfs_header {kind : PouKind} {header : Line}
    (isHeader : headerKind? header.text = some kind)
    (clean : nestingFindings [] [header] = []) : openIfs (openAfter [] header) = [] := by
  have starts : startsWithWord kind.keyword header.text = true :=
    List.find?_some (p := fun kind : PouKind => startsWithWord kind.keyword header.text) isHeader
  obtain ⟨name, text, -⟩ := eq_append_of_startsWithWord starts
  have noEnd : endsIf header.text = false := by
    rw [text]
    cases kind <;> rfl
  have noIf : opensConditional header.text = false := by
    rw [text]
    cases kind <;> rfl
  have exact_ : HasExactEnds [header.text] := by
    constructor
    · intro line mem ends
      rw [List.mem_singleton.mp mem, noEnd] at ends
      contradiction
    · intro line mem opens
      rw [List.mem_singleton.mp mem, opensBlock, noIf] at opens
      contradiction
  rcases openAfter_cases exact_ clean with ⟨-, top, shrinks⟩ | ⟨-, opens, -⟩ | ⟨-, -, same⟩
  · contradiction
  · rw [opened?_eq_ifBlock, noIf] at opens
    simp at opens
  · exact same

theorem openBehind_blank {lines : List Line} (blank : ∀ line ∈ lines, line.text = [])
    (stack : List OpenConstruct) : openBehind stack lines = stack := by
  induction lines generalizing stack with
  | nil => rfl
  | cons line rest ih =>
    have here : openAfter stack line = stack := by
      rw [openAfter, blank line List.mem_cons_self]
      rfl
    rw [openBehind, List.foldl_cons, here]
    exact ih (fun l mem => blank l (List.mem_cons_of_mem _ mem)) stack

section Accepted
variable {source : Text} {kind : PouKind} {before : Nat} {rest : List Text} {lead : List Line}
  {header : Line} {body : List Line} (unit : UnitLines source kind before rest lead header body)
  (clean : nestingFindings [] (sourceLines source) = []) (exact_ : HasExactEnds rest)
include unit clean exact_

theorem closed_of_accepted (closed : openBehind [] (sourceLines source) = []) :
    (run kind rest).blocks.opened = [] := by
  rw [unit.split] at clean closed
  rw [List.append_cons, nestingFindings_append] at clean
  rw [List.append_cons, openBehind_append] at closed
  have exact' : HasExactEnds (body.map (·.text)) := unit.texts.symm ▸ exact_
  have bound := foldl_depthAfter_le exact' (List.append_eq_nil_iff.mp clean).2 (Nat.zero_le _)
  rw [closed, unit.texts] at bound
  have below := length_foldl_le kind (s := start) (fun _ => rfl) rest (Nat.le_refl 0)
  exact List.length_eq_zero_iff.mp (Nat.le_zero.mp (Nat.le_trans below bound))

theorem shallow_of_accepted (nesting : ifNesting [] (sourceLines source) ≤ blockLimit)
    {line : Text} {behind : List Text} (inside : line :: behind <:+ rest)
    (opens : opensBlock line = true) :
    StaysWithin blockLimit (BlockStack.empty.push line) behind := by
  intro used start
  obtain ⟨front, rfl⟩ := inside
  obtain ⟨more, rfl⟩ := start
  have texts := unit.texts
  rw [← List.cons_append] at texts
  obtain ⟨front', tail, rfl, -, texts⟩ := List.map_eq_append_iff.mp texts
  obtain ⟨middle, more', rfl, middleTexts, -⟩ := List.map_eq_append_iff.mp texts
  have order : sourceLines source = lead ++ header :: front' ++ middle ++ more' := by
    rw [unit.split, List.append_assoc, List.append_assoc, List.cons_append]
  have reached : lead ++ header :: front' ++ middle <+: sourceLines source := ⟨more', order.symm⟩
  rw [order, nestingFindings_append, nestingFindings_append] at clean
  have clean' := (List.append_eq_nil_iff.mp (List.append_eq_nil_iff.mp clean).1).2
  have exact' : HasExactEnds (middle.map (·.text)) := by
    apply exact_.mono
    intro l mem
    rw [middleTexts] at mem
    exact List.mem_append_right front (List.mem_append_left more mem)
  have bound := foldl_depthAfter_le exact' clean' (Nat.zero_le _)
  have most := openIfs_le_ifNesting reached []
  rw [openBehind_append] at most
  rw [middleTexts, List.foldl_cons, depthAfter_opening 0 opens] at bound
  have depth := length_foldl_step (BlockStack.empty.push line) used
  have one : (BlockStack.empty.push line).opened.length = 0 + 1 := rfl
  rw [one] at depth
  omega

theorem openLines_of_accepted (headerFirst : ∀ line ∈ lead, line.text = [])
    (plain : HasPlainIfs kind start rest) {n : Nat}
    (going : (run kind (rest.take n)).ended = false) :
    (run kind (rest.take n)).blocks.openLines.map some =
      openIfLines (lineTexts source)
        (openBehind [] ((sourceLines source).take (before + 1 + n))) := by
  have texts : (body.take n).map (·.text) = rest.take n := by rw [List.map_take, unit.texts]
  have order : sourceLines source = lead ++ [header] ++ body.take n ++ body.drop n := by
    rw [unit.split, List.append_assoc, List.take_append_drop, List.append_cons]
  have taken : (sourceLines source).take (before + 1 + n) = lead ++ [header] ++ body.take n := by
    have length : before + 1 = (lead ++ [header]).length := by
      rw [List.length_append, unit.length, List.length_singleton]
    rw [unit.split, List.append_cons, length, List.take_length_add_append]
  have numbered : ∀ line ∈ body.take n,
      (lineTexts source)[line.number - 1]? = some line.text := by
    intro line mem
    have inside : line ∈ sourceLines source := by
      rw [unit.split]
      exact List.mem_append_right lead (List.mem_cons_of_mem header (List.mem_of_mem_take mem))
    exact (text_at_number inside).2
  rw [order, nestingFindings_append, nestingFindings_append, nestingFindings_append] at clean
  simp only [List.append_eq_nil_iff] at clean
  obtain ⟨⟨⟨-, cleanHeader⟩, cleanBody⟩, -⟩ := clean
  have lead' : openBehind [] lead = [] := openBehind_blank headerFirst []
  have behindHeader : openBehind [] (lead ++ [header]) = openAfter [] header := by
    rw [openBehind_append, lead']
    rfl
  rw [lead'] at cleanHeader
  rw [behindHeader] at cleanBody
  have none : openIfLines (lineTexts source) (openAfter [] header) = [] := by
    rw [openIfLines, openIfs_header unit.isHeader cleanHeader, List.map_nil]
  have exact' : HasExactEnds ((body.take n).map (·.text)) := by
    apply exact_.mono
    rw [texts]
    exact List.take_subset n rest
  have plain' : HasPlainIfs kind start ((body.take n).map (·.text)) := by
    rw [← List.take_append_drop n rest] at plain
    rw [texts]
    exact plain.left
  rw [taken, openBehind_append, behindHeader]
  rw [run, ← texts] at going ⊢
  exact openIfLines_openBehind numbered exact' cleanBody plain' going none.symm

end Accepted

/-- In a unit whose IFs and END_IFs the reader and the validator recognise alike, and which the
    validator accepts, no block stays open: every line that opens one becomes a conditional with its
    branches.  If moreover all IFs of the validator begin blocks, then up to the terminator the
    blocks that are open are those of its open IFs, so that no line of a body is read outside. -/
theorem statements_of_accepted {extraTypes : List Text} {source : Text} {kind : PouKind}
    {before : Nat} {header : Text} {rest : List Text}
    (first : findHeader? (lineTexts source) = some (kind, before, header, rest))
    (accepted : reportsError extraTypes source = false)
    (nesting : ifNesting [] (sourceLines source) ≤ blockLimit) (exact_ : HasExactEnds rest) :
    ∃ pou, Pou.ofSource? source = some pou ∧ (∀ s ∈ pou.statements, ComesFrom rest s) ∧
      (run kind rest).blocks.opened = [] ∧ pou.statements = (run kind rest).blocks.outside ∧
      ((∀ line ∈ (lineTexts source).take before, line = []) → HasPlainIfs kind start rest →
        ∀ n, (run kind (rest.take n)).ended = false →
          (run kind (rest.take n)).blocks.openLines.map some = openIfLines (lineTexts source)
            (openBehind [] ((sourceLines source).take (before + 1 + n)))) := by
  obtain ⟨clean, closed⟩ := nesting_of_noError accepted
  obtain ⟨lead, line, body, unit⟩ := exists_unitLines first
  have none := closed_of_accepted unit clean exact_ closed
  obtain ⟨pou, read, statements⟩ := statements_eq_outside first none
    fun line behind inside opens => shallow_of_accepted unit clean exact_ nesting inside opens
  refine ⟨pou, read, ?_, none, statements, ?_⟩
  · rw [statements]
    exact (isMadeOf_run kind rest).outside
  · intro headerFirst plain n going
    refine openLines_of_accepted unit clean exact_ ?_ plain going
    intro l mem
    apply headerFirst
    rw [lineTexts, unit.split, List.map_append, ← unit.length, ← List.length_map (·.text),
      List.take_left]
    exact List.mem_map_of_mem mem

def nestedIfs : List Text :=
  ["VAR", "x : INT;", "END_VAR", "IF a THEN", "IF b THEN", "x := y;", "ELSE", "x := z;", "END_IF;",
    "x := w;", "END_IF", "END_PROGRAM"].map String.toList

theorem statements_of_accepted_nestedIfs :
    reportsError [] ("PROGRAM P".toList ++ nestedIfs.flatMap ('\n' :: ·)) = false ∧
      ∃ pou, Pou.ofSource? ("PROGRAM P".toList ++ nestedIfs.flatMap ('\n' :: ·)) = some pou ∧
        (∀ s ∈ pou.statements, ComesFrom nestedIfs s) ∧
        pou.statements = (run .program nestedIfs).blocks.outside ∧
        ∀ n, (run .program (nestedIfs.take n)).ended = false →
          (run .program (nestedIfs.take n)).blocks.openLines.map some =
            openIfLines (lineTexts ("PROGRAM P".toList ++ nestedIfs.flatMap ('\n' :: ·)))
              (openBehind []
                ((sourceLines ("PROGRAM P".toList ++ nestedIfs.flatMap ('\n' :: ·))).take
                  (0 + 1 + n))) := by
  have first : findHeader? (lineTexts ("PROGRAM P".toList ++ nestedIfs.flatMap ('\n' :: ·))) =
      some (.program, 0, "PROGRAM P".toList, nestedIfs) := by decide
  have accepted : reportsError [] ("PROGRAM P".toList ++ nestedIfs.flatMap ('\n' :: ·)) = false := by
    decide
  have plain : HasPlainIfs .program start nestedIfs := by decide
  obtain ⟨pou, read, origin, -, statements, agree⟩ :=
    statements_of_accepted first accepted (by decide) (by decide)
  refine ⟨accepted, pou, read, origin, statements, agree ?_ plain⟩
  intro line mem
  rw [List.take_zero] at mem
  exact absurd mem List.not_mem_nil

/-- A blank before the semicolon makes the END_IF one for the validator only. -/
def looseEnd : Text := "PROGRAM P\nIF a THEN\nx := b;\nEND_IF ;\nEND_PROGRAM".toList

def partedThen : Text :=
  "PROGRAM P\nIF a THEN\nIF b\nTHEN\nx := c;\nEND_IF\ny := d;\nEND_IF\nEND_PROGRAM".toList

/-- The first IF has no branches, and the end of the second one's body is read outside it. -/
theorem statements_of_accepted_astray :
    (reportsError [] looseEnd = false ∧ ifNesting [] (sourceLines looseEnd) ≤ blockLimit ∧
      ∃ pou, Pou.ofSource? looseEnd = some pou ∧
        Statement.sameAll pou.statements
          [.conditional (some (.variable "a".toList)) none none,
            .assignment "x".toList (.variable "b".toList)] = true) ∧
    reportsError [] partedThen = false ∧ ifNesting [] (sourceLines partedThen) ≤ blockLimit ∧
      openIfLines (lineTexts partedThen) (openBehind [] ((sourceLines partedThen).take 7)) =
        [some "IF a THEN".toList] ∧
      ∃ pou, Pou.ofSource? partedThen = some pou ∧
        Statement.sameAll pou.statements
          [.conditional (some (.variable "a".toList))
              (some [.conditional (some (.variable "b".toList)) none none,
                .assignment "x".toList (.variable "c".toList)]) (some []),
            .assignment "y".toList (.variable "d".toList)] = true := by
  refine ⟨⟨?_, ?_, _, rfl, ?_⟩, ?_, ?_, ?_, _, rfl, ?_⟩
  · decide
  · decide
  · decide +kernel
  · decide
  · decide
  · decide
  · decide +kernel

end StructuredText
