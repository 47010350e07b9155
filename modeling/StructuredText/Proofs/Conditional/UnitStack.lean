import StructuredText.Proofs.Conditional.Bracketing
import StructuredText.Proofs.Conditional.Depth

/- A whole unit in a single pass: sections, blocks and the terminator.  Inside a block every line is
   the block's; outside, a line is what its first word makes of it. -/
namespace StructuredText

structure UnitStack where
  inSection : Bool
  ended : Bool
  blocks : BlockStack

namespace UnitStack

def start : UnitStack := ⟨false, false, BlockStack.empty⟩

def step (kind : PouKind) (s : UnitStack) (line : Text) : UnitStack :=
  if s.ended then s
  else if s.blocks.opened.isEmpty then
    match UnitLine.of kind line with
    | .empty | .strayTerminator => s
    | .terminator => { s with ended := true }
    | .opensSection _ => { s with inSection := true }
    | .closesSection => { s with inSection := false }
    | .other => if s.inSection then s else { s with blocks := s.blocks.step line }
  else { s with blocks := s.blocks.step line }

def run (kind : PouKind) (lines : List Text) : UnitStack := lines.foldl (step kind) start

section Steps
variable (kind : PouKind) (line : Text) {s : UnitStack}

theorem step_ended (ended : s.ended = true) : s.step kind line = s := by
  rw [step, if_pos ended]

theorem foldl_ended (ended : s.ended = true) (lines : List Text) :
    lines.foldl (step kind) s = s := by
  induction lines with
  | nil => rfl
  | cons line rest ih => rw [List.foldl_cons, step_ended kind line ended, ih]

theorem step_inside (going : s.ended = false) (inside : s.blocks.opened ≠ []) :
    s.step kind line = { s with blocks := s.blocks.step line } := by
  rw [step, if_neg (by simp [going]), if_neg (by simpa using inside)]

theorem step_outside (going : s.ended = false) (outside : s.blocks.opened = []) :
    s.step kind line = match UnitLine.of kind line with
      | .empty | .strayTerminator => s
      | .terminator => { s with ended := true }
      | .opensSection _ => { s with inSection := true }
      | .closesSection => { s with inSection := false }
      | .other => if s.inSection then s else { s with blocks := s.blocks.step line } := by
  rw [step, if_neg (by simp [going]), if_pos (by simp [outside])]

/-- No more blocks are open than the lines open, and none is when the unit ends. -/
theorem length_step_le (s : UnitStack) (ends : s.ended = true → s.blocks.opened = []) :
    (s.step kind line).blocks.opened.length ≤ depthAfter s.blocks.opened.length line ∧
      ((s.step kind line).ended = true → (s.step kind line).blocks.opened = []) := by
  cases ended : s.ended with
  | true =>
    rw [step_ended kind line ended, ends ended]
    exact ⟨Nat.zero_le _, fun _ => rfl⟩
  | false =>
    by_cases outside : s.blocks.opened = []
    · rw [step_outside kind line ended outside, outside]
      split
      · exact ⟨by simp [outside], fun _ => outside⟩
      · exact ⟨by simp [outside], fun _ => outside⟩
      · exact ⟨by simp [outside], fun _ => outside⟩
      · exact ⟨by simp [outside], fun _ => outside⟩
      · exact ⟨by simp [outside], fun _ => outside⟩
      · split
        · exact ⟨by simp [outside], fun _ => outside⟩
        · refine ⟨Nat.le_of_eq ?_, fun finished => absurd finished (by simp [ended])⟩
          rw [length_step, outside]
    · rw [step_inside kind line ended outside]
      exact ⟨Nat.le_of_eq (length_step _ _), fun finished => absurd finished (by simp [ended])⟩

/-- While the unit goes on, and no IF stands among its declarations, each line does to the open
    blocks what it does by itself. -/
theorem openLines_unitStep (going : (s.step kind line).ended = false)
    (other : opensBlock line = true → UnitLine.of kind line = .other)
    (plain : opensBlock line = true → s.blocks.opened = [] → s.inSection = false) :
    (s.step kind line).blocks.openLines = openLinesAfter s.blocks.openLines line := by
  cases ended : s.ended with
  | true =>
    rw [step_ended kind line ended, ended] at going
    contradiction
  | false =>
    by_cases outside : s.blocks.opened = []
    · cases opens : opensBlock line with
      | true =>
        rw [step_outside kind line ended outside, other opens, plain opens outside]
        exact openLines_step s.blocks line
      | false =>
        have none : s.blocks.openLines = [] := by rw [BlockStack.openLines, outside, List.map_nil]
        have stays : openLinesAfter [] line = [] := by simp [openLinesAfter, opens]
        have length := (length_step_le kind line s fun _ => outside).1
        have zero : depthAfter s.blocks.opened.length line = 0 := by
          simp [depthAfter, outside, opens]
        rw [zero, Nat.le_zero, List.length_eq_zero_iff] at length
        rw [none, stays, BlockStack.openLines, length, List.map_nil]
    · rw [step_inside kind line ended outside]
      exact openLines_step s.blocks line

theorem length_foldl_le (ends : s.ended = true → s.blocks.opened = []) (lines : List Text)
    {depth : Nat} (below : s.blocks.opened.length ≤ depth) :
    (lines.foldl (step kind) s).blocks.opened.length ≤ lines.foldl depthAfter depth := by
  induction lines generalizing s depth with
  | nil => exact below
  | cons line rest ih =>
    obtain ⟨length, ends'⟩ := length_step_le kind line s ends
    exact ih ends' (Nat.le_trans length (depthAfter_mono below line))

theorem foldl_closing (going : s.ended = false) (inside : s.blocks.opened ≠ [])
    {lines behind : List Text} (found : behindClose? s.blocks.opened.length lines = some behind) :
    ∃ used, lines = used ++ behind ∧
      used.foldl (step kind) s = { s with blocks := used.foldl BlockStack.step s.blocks } := by
  induction lines generalizing s with
  | nil => contradiction
  | cons line rest ih =>
    have here := step_inside kind line going inside
    have length := length_step s.blocks line
    rw [behindClose?, ← length] at found
    by_cases closed : (s.blocks.step line).opened.length = 0
    · rw [if_pos closed] at found
      obtain rfl := Option.some.inj found
      exact ⟨[line], rfl, here⟩
    · rw [if_neg closed] at found
      have further := ih (s := { s with blocks := s.blocks.step line }) going
        (mt List.length_eq_zero_iff.mpr closed) found
      obtain ⟨used, rfl, moved⟩ := further
      exact ⟨line :: used, rfl, by rw [List.foldl_cons, here, moved, List.foldl_cons]⟩

theorem foldl_open (going : s.ended = false) (inside : s.blocks.opened ≠ []) {lines : List Text}
    (never : behindClose? s.blocks.opened.length lines = none) :
    (lines.foldl (step kind) s).blocks.opened ≠ [] := by
  induction lines generalizing s with
  | nil => exact inside
  | cons line rest ih =>
    have length := length_step s.blocks line
    rw [behindClose?, ← length] at never
    split at never
    · contradiction
    · next stays =>
      rw [List.foldl_cons, step_inside kind line going inside]
      exact ih going (mt List.length_eq_zero_iff.mpr stays) never

end Steps

theorem rereadBlock_closed {line : Text} (opens : opensBlock line = true) {used behind : List Text}
    (found : behindClose? 1 (used ++ behind) = some behind) :
    ∃ closed, rereadBlock line (used ++ behind) = some closed ∧ closed.stop = behind.length ∧
      ∀ s : BlockStack, (line :: used).foldl BlockStack.step s = s.put [closed.statement] := by
  obtain ⟨closed, eq, stop⟩ := rereadBlock_of_behindClose? line found
  have free : CloseFree [] := fun _ mem => absurd mem List.not_mem_nil
  have cases := rereadBlock_cases (matches_of_closeFree free (used ++ behind)) opens
  rw [List.append_nil, eq] at cases
  rcases cases with ⟨closed', used', behind', same, split, place, taken⟩ | ⟨missing, -⟩
  · obtain rfl := Option.some.inj same
    rw [List.append_nil, stop] at place
    obtain ⟨rfl, -⟩ := List.append_inj' split place
    exact ⟨closed, eq, stop, taken⟩
  · contradiction

/-- Both passes go on behind the lines that are used, with the same statements found in them. -/
structure GoesOnAt (kind : PouKind) (place later : UnitPlace) (statements : List Statement)
    (used behind : List Text) : Prop where
  pass (before : List Statement) :
    used.foldl (step kind) ⟨place.inSection, false, before, []⟩ =
      ⟨later.inSection, false, before ++ statements, []⟩
  reader : (readUnitLines reread kind place 0 (used ++ behind) Progress.start).1.statements =
    statements ++ (readUnitLines reread kind later 0 behind Progress.start).1.statements

section Line
variable {kind : PouKind} {line : Text}

theorem goesOnAt_frame {place : UnitPlace} (going : UnitLine.of kind line ≠ .terminator)
    (frame : place = .body → UnitLine.of kind line ≠ .other) (rest : List Text) :
    ∃ later, GoesOnAt kind place later [] [line] rest := by
  have here (before : List Statement) :=
    step_outside kind line (s := ⟨place.inSection, false, before, []⟩) rfl rfl
  have goes (later : UnitPlace)
      (pass : ∀ before, step kind ⟨place.inSection, false, before, []⟩ line =
        ⟨later.inSection, false, before, []⟩)
      (reader : (readUnitLines reread kind place 0 (line :: rest) Progress.start).1.statements =
        (readUnitLines reread kind later 0 rest Progress.start).1.statements) :
      ∃ later, GoesOnAt kind place later [] [line] rest :=
    ⟨later, fun before => by rw [List.append_nil]; exact pass before, reader⟩
  rcases unitLine_cases kind line place with
    empty | ends | ⟨role, opens⟩ | closes | ⟨role, rfl, inner⟩ | ⟨rfl, stray⟩ | ⟨rfl, other⟩
  · simp only [empty] at here
    exact goes place here (by rw [readUnitLines_empty _ _ _ empty])
  · exact absurd ends going
  · simp only [opens] at here
    exact goes (.declarations role) here (by rw [readUnitLines_opensSection _ _ _ opens])
  · simp only [closes] at here
    exact goes .body here (by rw [readUnitLines_closesSection _ _ _ closes])
  · refine goes (.declarations role) (fun before => (here before).trans ?_)
      (by rw [readUnitLines_declaration _ _ _ inner])
    rcases inner with stray | other
    · rw [stray]
    · rw [other]
      rfl
  · simp only [stray] at here
    exact goes .body here (by rw [readUnitLines_stray _ _ stray])
  · exact absurd other (frame rfl)

variable (other : UnitLine.of kind line = .other)
include other

theorem step_statement (before : List Statement) :
    step kind ⟨false, false, before, []⟩ line =
      ⟨false, false, BlockStack.step ⟨before, []⟩ line⟩ := by
  rw [step_outside kind line rfl rfl, other]
  rfl

theorem goesOnAt_single (single : opensBlock line = false) (rest : List Text) :
    GoesOnAt kind .body .body (singleStatements [line]) [line] rest := by
  have only : ∀ l ∈ [line], opensBlock l = false := by
    intro l mem
    rwa [List.mem_singleton.mp mem]
  constructor
  · intro before
    exact (step_statement other before).trans (congrArg _ (foldl_step_single only before))
  · obtain ⟨statement, taken, -⟩ := readAt_single reread single rest Progress.start
    rw [List.singleton_append, readUnitLines_statement _ _ other,
      readUnitLines_forgetful reread_forgetful _ _ _ _ Progress.start, statement, taken,
      singleStatements, List.flatMap_singleton]

theorem goesOnAt_block (opens : opensBlock line = true) {rest behind : List Text}
    (found : behindClose? 1 rest = some behind) :
    ∃ statement used, rest = used ++ behind ∧
      GoesOnAt kind .body .body [statement] (line :: used) behind := by
  have inside (before : List Statement) : (BlockStack.push ⟨before, []⟩ line).opened ≠ [] := by
    simp [BlockStack.push]
  have pushed (before : List Statement) : step kind ⟨false, false, before, []⟩ line =
      ⟨false, false, BlockStack.push ⟨before, []⟩ line⟩ := by
    rw [step_statement other, BlockStack.step_opening _ opens]
  obtain ⟨used, rfl, -⟩ := foldl_closing kind (s := ⟨false, false, BlockStack.push ⟨[], []⟩ line⟩)
    rfl (inside []) found
  obtain ⟨block, eq, stop, taken⟩ := rereadBlock_closed opens found
  refine ⟨block.statement, used, rfl, fun before => ?_, ?_⟩
  · obtain ⟨used', split, moved⟩ := foldl_closing kind
      (s := ⟨false, false, BlockStack.push ⟨before, []⟩ line⟩) rfl (inside before) found
    obtain rfl := List.append_cancel_right split
    have after := taken ⟨before, []⟩
    rw [List.foldl_cons, BlockStack.step_opening _ opens] at after
    rw [List.foldl_cons, UnitPlace.inSection, pushed, moved, after]
    rfl
  · obtain ⟨statement, skip, -⟩ := readAt_opening reread opens (used ++ behind) Progress.start
    have resumed := drop_used used behind [] (n := block.stop) (by rw [stop, List.append_nil])
    rw [List.append_nil, List.append_nil] at resumed
    rw [rereadBlock] at eq
    rw [List.cons_append, readUnitLines_statement _ _ other,
      readUnitLines_forgetful reread_forgetful _ _ _ _ Progress.start, statement, skip, eq,
      readUnitLines_skip]
    simp only [statementAt, resumed]
    rfl

end Line

/-- Where all blocks close, the reader finds the statements of the single pass. -/
theorem outside_eq_reread {kind : PouKind} {lines : List Text} (place : UnitPlace)
    (before : List Statement)
    (closed : (lines.foldl (step kind) ⟨place.inSection, false, before, []⟩).blocks.opened = []) :
    (lines.foldl (step kind) ⟨place.inSection, false, before, []⟩).blocks.outside =
      before ++ (readUnitLines reread kind place 0 lines Progress.start).1.statements := by
  induction size : lines.length using Nat.strongRecOn generalizing lines place before with
  | ind n ih =>
    subst size
    have next {later : UnitPlace} {statements : List Statement} {used behind : List Text}
        (whole : lines = used ++ behind) (shorter : behind.length < lines.length)
        (goes : GoesOnAt kind place later statements used behind) :
        (lines.foldl (step kind) ⟨place.inSection, false, before, []⟩).blocks.outside =
          before ++ (readUnitLines reread kind place 0 lines Progress.start).1.statements := by
      have inner := @ih behind.length shorter behind later (before ++ statements)
      subst whole
      rw [List.foldl_append, goes.pass] at closed ⊢
      rw [goes.reader, ← List.append_assoc]
      exact inner closed rfl
    cases lines with
    | nil => simp [readUnitLines]
    | cons line rest =>
      by_cases ends : UnitLine.of kind line = .terminator
      · have here := step_outside kind line (s := ⟨place.inSection, false, before, []⟩) rfl rfl
        simp only [ends] at here
        rw [List.foldl_cons, here, foldl_ended kind rfl, readUnitLines_terminator _ _ _ ends,
          List.append_nil]
      by_cases statement : place = .body ∧ UnitLine.of kind line = .other
      · obtain ⟨rfl, other⟩ := statement
        cases opens : opensBlock line with
        | false => exact next rfl (Nat.lt_succ_self _) (goesOnAt_single other opens rest)
        | true =>
          cases found : behindClose? 1 rest with
          | none =>
            have inside : (BlockStack.push ⟨before, []⟩ line).opened ≠ [] := by
              simp [BlockStack.push]
            rw [List.foldl_cons, UnitPlace.inSection, step_statement other,
              BlockStack.step_opening _ opens] at closed
            exact absurd closed (foldl_open kind rfl inside found)
          | some behind =>
            obtain ⟨statement, used, rfl, goes⟩ := goesOnAt_block other opens found
            exact next rfl (length_behind_lt line used behind) goes
      · have frame := fun inBody other => statement ⟨inBody, other⟩
        obtain ⟨later, goes⟩ := goesOnAt_frame ends frame rest
        exact next rfl (Nat.lt_succ_self _) goes

section Shallow
variable {whole : List Text}

theorem readBlock_shallow {line : Text} {rest : List Text} (inside : rest <:+ whole)
    (shallow : StaysWithin blockLimit (BlockStack.empty.push line) rest) {p : Progress}
    (fine : p.tooDeep = false) (faithful : Faithful whole p) :
    (readBlock blockLimit line rest p).2.tooDeep = false := by
  apply readBlock_fine (by decide) fine
  intro inner q eq fine' blocks
  have free : CloseFree [] := fun _ mem => absurd mem List.not_mem_nil
  have single : ∀ l ∈ ([] : List Text), opensBlock l = false := fun _ mem =>
    absurd mem List.not_mem_nil
  have inside' : rest ++ [] <:+ whole := by rwa [List.append_nil]
  have room : blockLimit ≤ inner + (BlockStack.empty.push line).opened.length := Nat.le_of_eq eq
  have body : (readBody (readBlock inner) false 0 (rest ++ []) q).2.tooDeep = false :=
    readBody_fine free single inside' shallow room fine' (faithful.of_blocks blocks)
  rwa [List.append_nil] at body

/-- No block lies too deep if the stack stays within the limit from every line that opens one. -/
theorem readUnitLines_shallow (kind : PouKind) (place : UnitPlace) {lines : List Text}
    (shallow : ∀ line rest, line :: rest <:+ lines → opensBlock line = true →
      StaysWithin blockLimit (BlockStack.empty.push line) rest)
    (inside : lines <:+ whole) {p : Progress} (fine : p.tooDeep = false)
    (faithful : Faithful whole p) :
    (readUnitLines (readBlock blockLimit) kind place 0 lines p).2.tooDeep = false := by
  induction size : lines.length using Nat.strongRecOn generalizing lines place p with
  | ind n ih =>
    cases lines with
    | nil =>
      rw [readUnitLines]
      exact fine
    | cons line rest =>
      subst size
      have later : rest <:+ line :: rest := List.suffix_cons line rest
      have next (place : UnitPlace) (k : Nat) {q : Progress} (fine : q.tooDeep = false)
          (faithful : Faithful whole q) :
          (readUnitLines (readBlock blockLimit) kind place 0 (rest.drop k) q).2.tooDeep = false := by
        have further := (List.drop_suffix k rest).trans later
        exact ih _ (length_drop_lt line rest k) place
          (fun l r start => shallow l r (start.trans further)) (further.trans inside) fine faithful
          rfl
      rcases frame_cases kind line place with ends | ⟨rfl, other⟩ | ⟨after, declared, frame⟩
      · rw [readUnitLines_terminator _ _ _ ends]
        exact fine
      · rw [readUnitLines_statement _ _ other, readUnitLines_skip]
        cases opens : opensBlock line with
        | false =>
          obtain ⟨-, -, deep, blocks⟩ := readAt_single (readBlock blockLimit) opens rest p
          exact next .body _ (by rw [deep, fine]) (faithful.of_blocks blocks)
        | true =>
          have here := readBlock_shallow (later.trans inside)
            (shallow line rest (List.suffix_refl _) opens) fine faithful
          obtain ⟨-, fine', kept⟩ := readAt_opening_fine opens inside faithful here
          exact next .body _ fine' kept
      · rw [frame.reads]
        exact next after 0 fine faithful

end Shallow

/-- A unit in which all blocks close, none of them too deep, has the statements of the single
    pass. -/
theorem statements_eq_outside {source : Text} {kind : PouKind} {before : Nat} {header : Text}
    {rest : List Text} (first : findHeader? (lineTexts source) = some (kind, before, header, rest))
    (closed : (run kind rest).blocks.opened = [])
    (shallow : ∀ line behind, line :: behind <:+ rest → opensBlock line = true →
      StaysWithin blockLimit (BlockStack.empty.push line) behind) :
    ∃ pou, Pou.ofSource? source = some pou ∧
      pou.statements = (run kind rest).blocks.outside := by
  refine ⟨(readPou kind header rest).1, ?_, ?_⟩
  · simp only [Pou.ofSource?, Reading.ofSource, readLines, first]
  · have inside := List.suffix_refl rest
    have faithful := faithful_start rest
    have fine := readUnitLines_shallow kind .body shallow inside rfl faithful
    have same := readUnitLines_agrees (readBlock_agrees rest blockLimit)
      (readBlock_proceeds blockLimit) inside faithful fine
    have read := outside_eq_reread .body [] closed
    rw [List.nil_append, ← same] at read
    exact read.symm

end UnitStack
end StructuredText
