import StructuredText.Proofs.Conditional.Step

/- Matching IF with END_IF in a single pass.  A stack holds the blocks that are open, each with the
   statements read in it so far; nothing is read ahead and nothing is read twice. -/
namespace StructuredText

/-- A block whose END_IF is still to come.  Its else branch begins at its first ELSE. -/
structure OpenBlock where
  line : Text
  thenBranch : List Statement
  elseBranch : Option (List Statement)

namespace OpenBlock

def begin (line : Text) : OpenBlock := ⟨line, [], none⟩

def turn (b : OpenBlock) : OpenBlock := { b with elseBranch := some (b.elseBranch.getD []) }

def put (b : OpenBlock) (statements : List Statement) : OpenBlock :=
  match b.elseBranch with
  | none => { b with thenBranch := b.thenBranch ++ statements }
  | some branch => { b with elseBranch := some (branch ++ statements) }

def closedWith (b : OpenBlock) (more : Branches) : Statement :=
  .conditional ((blockCondition? b.line).map Expression.ofText)
    (some (b.thenBranch ++ more.thenBranch)) (some (b.elseBranch.getD [] ++ more.elseBranch))

def closed (b : OpenBlock) : Statement := b.closedWith ⟨[], []⟩

/-- What a block leaves that never closes: its first line, read for itself, and then the
    statements behind that line. -/
def unclosed (b : OpenBlock) : List Statement :=
  (Statement.ofLine? b.line).toList ++ b.thenBranch ++ b.elseBranch.getD []

theorem closedWith_turn (b : OpenBlock) (more : Branches) :
    b.turn.closedWith more = b.closedWith more := by
  cases b with
  | mk line thenBranch elseBranch => cases elseBranch <;> rfl

theorem closedWith_put (b : OpenBlock) (more : Branches) (statement : Option Statement) :
    (b.put statement.toList).closedWith more =
      b.closedWith (more.add b.elseBranch.isSome statement) := by
  cases b with
  | mk line thenBranch elseBranch =>
    cases elseBranch <;> simp [put, closedWith, Branches.add]

theorem isSome_put (b : OpenBlock) (statements : List Statement) :
    (b.put statements).elseBranch.isSome = b.elseBranch.isSome := by
  cases b with
  | mk line thenBranch elseBranch => cases elseBranch <;> rfl

theorem put_nil (b : OpenBlock) : b.put [] = b := by
  cases b with
  | mk line thenBranch elseBranch => cases elseBranch <;> simp [put]

theorem put_put (b : OpenBlock) (first second : List Statement) :
    (b.put first).put second = b.put (first ++ second) := by
  cases b with
  | mk line thenBranch elseBranch => cases elseBranch <;> simp [put]

theorem unclosed_turn (b : OpenBlock) : b.turn.unclosed = b.unclosed := by
  cases b with
  | mk line thenBranch elseBranch => cases elseBranch <;> rfl

theorem unclosed_put (b : OpenBlock) (statements : List Statement) :
    (b.put statements).unclosed = b.unclosed ++ statements := by
  cases b with
  | mk line thenBranch elseBranch => cases elseBranch <;> simp [put, unclosed]

end OpenBlock

/-- The statements outside all blocks and the open blocks, the innermost first. -/
structure BlockStack where
  outside : List Statement
  opened : List OpenBlock

namespace BlockStack

def empty : BlockStack := ⟨[], []⟩

def put (s : BlockStack) (statements : List Statement) : BlockStack :=
  match s.opened with
  | [] => ⟨s.outside ++ statements, []⟩
  | b :: outer => ⟨s.outside, b.put statements :: outer⟩

def turn (s : BlockStack) : BlockStack :=
  match s.opened with
  | [] => s
  | b :: outer => ⟨s.outside, b.turn :: outer⟩

def close (s : BlockStack) : BlockStack :=
  match s.opened with
  | [] => s
  | b :: outer => put ⟨s.outside, outer⟩ [b.closed]

def push (s : BlockStack) (line : Text) : BlockStack :=
  ⟨s.outside, OpenBlock.begin line :: s.opened⟩

def step (s : BlockStack) (line : Text) : BlockStack :=
  if line.isEmpty then s
  else if line = "ELSE".toList then s.turn
  else if closesBlock line then s.close
  else if opensBlock line then s.push line
  else s.put (Statement.ofLine? line).toList

def run (lines : List Text) : BlockStack := lines.foldl step empty

theorem run_append (first second : List Text) :
    run (first ++ second) = second.foldl step (run first) := by
  rw [run, List.foldl_append, ← run]

/-- All statements in order, the blocks still open being taken for unclosed. -/
def statements (s : BlockStack) : List Statement :=
  s.outside ++ s.opened.reverse.flatMap OpenBlock.unclosed

theorem step_blank (s : BlockStack) : s.step [] = s := by simp [step]

theorem step_else (s : BlockStack) : s.step "ELSE".toList = s.turn := by
  rw [step, if_neg (by decide), if_pos rfl]

theorem step_close (s : BlockStack) {line : Text} (closes : closesBlock line = true) :
    s.step line = s.close := by
  obtain ⟨nonempty, other⟩ := not_blank_of_closesBlock closes
  rw [step, if_neg nonempty, if_neg other, if_pos closes]

theorem step_opening (s : BlockStack) {line : Text} (opens : opensBlock line = true) :
    s.step line = s.push line := by
  have content := content_of_opensBlock opens
  rw [step, if_neg (by simp [content.nonempty]), if_neg content.stays,
    if_neg (by simp [content.goesOn]), if_pos opens]

theorem step_single (s : BlockStack) {line : Text} (content : IsContent line)
    (single : opensBlock line = false) :
    s.step line = s.put (Statement.ofLine? line).toList := by
  rw [step, if_neg (by simp [content.nonempty]), if_neg content.stays,
    if_neg (by simp [content.goesOn]), if_neg (by simp [single])]

theorem put_nil (s : BlockStack) : s.put [] = s := by
  cases s with
  | mk outside opened => cases opened <;> simp [put, OpenBlock.put_nil]

theorem put_put (s : BlockStack) (first second : List Statement) :
    (s.put first).put second = s.put (first ++ second) := by
  cases s with
  | mk outside opened => cases opened <;> simp [put, OpenBlock.put_put]

theorem length_put (s : BlockStack) (statements : List Statement) :
    (s.put statements).opened.length = s.opened.length := by
  cases s with
  | mk outside opened => cases opened <;> rfl

theorem length_turn (s : BlockStack) : s.turn.opened.length = s.opened.length := by
  cases s with
  | mk outside opened => cases opened <;> rfl

theorem statements_put (s : BlockStack) (more : List Statement) :
    (s.put more).statements = s.statements ++ more := by
  cases s with
  | mk outside opened => cases opened <;> simp [put, statements, OpenBlock.unclosed_put]

theorem statements_turn (s : BlockStack) : s.turn.statements = s.statements := by
  cases s with
  | mk outside opened => cases opened <;> simp [turn, statements, OpenBlock.unclosed_turn]

theorem statements_push (s : BlockStack) (line : Text) :
    (s.push line).statements = s.statements ++ (Statement.ofLine? line).toList := by
  simp [push, statements, OpenBlock.begin, OpenBlock.unclosed]

def behind (before : List Statement) (s : BlockStack) : BlockStack :=
  ⟨before ++ s.outside, s.opened⟩

theorem put_behind (before : List Statement) (s : BlockStack) (more : List Statement) :
    (s.behind before).put more = (s.put more).behind before := by
  cases s with
  | mk outside opened => cases opened <;> simp [put, behind]

theorem step_behind (before : List Statement) (s : BlockStack) (line : Text) :
    (s.behind before).step line = (s.step line).behind before := by
  have turned : (s.behind before).turn = s.turn.behind before := by
    cases s with
    | mk outside opened => cases opened <;> rfl
  have closed : (s.behind before).close = s.close.behind before := by
    cases s with
    | mk outside opened =>
      cases opened with
      | nil => rfl
      | cons b outer => exact put_behind before ⟨outside, outer⟩ [b.closed]
  simp only [step, turned, closed, put_behind]
  repeat' split
  all_goals rfl

theorem foldl_behind (before : List Statement) (s : BlockStack) (lines : List Text) :
    lines.foldl step (s.behind before) = (lines.foldl step s).behind before := by
  induction lines generalizing s with
  | nil => rfl
  | cons line rest ih => rw [List.foldl_cons, List.foldl_cons, step_behind, ih]

theorem statements_foldl_put (before : List Statement) (lines : List Text) :
    (lines.foldl step (empty.put before)).statements = before ++ (run lines).statements := by
  have same : empty.put before = empty.behind before := by simp [empty, put, behind]
  rw [same, foldl_behind, run]
  simp [statements, behind]

end BlockStack
end StructuredText
