import StructuredText.Proofs.Expression.Kept
import StructuredText.Proofs.Pou.Forward

/- The statements that reading can give, and what their lines are read as when they are written. -/
namespace StructuredText

mutual
def Statement.isKept : Statement → Bool
  | .assignment _ value => value.isKept (expressionLimit + 1)
  | .conditional condition thenBranch elseBranch =>
    condition.all (·.isKept (expressionLimit + 1)) && Statement.isKeptBranch thenBranch &&
      Statement.isKeptBranch elseBranch
  | .call _ _ arguments => Expression.areKept callLevels arguments
  | .forLoop body => Statement.areKept body
  | .whileLoop condition body =>
    condition.all (·.isKept (expressionLimit + 1)) && Statement.areKept body
  | .ret value => value.all (·.isKept (expressionLimit + 1))

def Statement.areKept : List Statement → Bool
  | [] => true
  | s :: rest => s.isKept && Statement.areKept rest

def Statement.isKeptBranch : Option (List Statement) → Bool
  | none => true
  | some branch => Statement.areKept branch
end

mutual
/-- The statement with all that is written of its conditionals: a condition and both branches. -/
def Statement.completed : Statement → Statement
  | .conditional condition thenBranch elseBranch =>
    .conditional (some (condition.getD (.literal (.bool true))))
      (some (Statement.completedBranch thenBranch)) (some (Statement.completedBranch elseBranch))
  | .forLoop body => .forLoop (Statement.completedAll body)
  | .whileLoop condition body =>
    .whileLoop (some (condition.getD (.literal (.bool true)))) (Statement.completedAll body)
  | s => s

def Statement.completedAll : List Statement → List Statement
  | [] => []
  | s :: rest => s.completed :: Statement.completedAll rest

def Statement.completedBranch : Option (List Statement) → List Statement
  | none => []
  | some branch => Statement.completedAll branch
end

inductive Statement.IsRead : Statement → Prop
  | assignment {target t : Text} (nonempty : target ≠ [])
    (chars : ∀ c ∈ target, isTargetChar c = true) (oneLine : '\n' ∉ t) :
    IsRead (.assignment target (Expression.ofText t))
  | conditional {t : Option Text} {thenBranch elseBranch : Option (List Statement)}
    (oneLine : ∀ u ∈ t, '\n' ∉ u)
    (first : ∀ s ∈ thenBranch.getD [], IsRead s) (second : ∀ s ∈ elseBranch.getD [], IsRead s) :
    IsRead (.conditional (t.map Expression.ofText) thenBranch elseBranch)
  | call {t name blanks inner : Text} (call : IsCallText t name blanks inner)
    (noConditional : name ≠ "IF".toList) (oneLine : '\n' ∉ t) :
    IsRead (.call name name ((argumentTexts inner).map (Expression.read callLevels)))

structure Expression.IsBack (e : Expression) : Prop where
  reread : e.IsReread (expressionLimit + 1)
  writable : e.isWritable = true
  oneLine : '\n' ∉ e.text

theorem oneLine_of_isDrawnFrom {e : Expression} {t : Text} (drawn : IsDrawnFrom e t)
    (oneLine : '\n' ∉ t) : '\n' ∉ e.text := by
  intro mem
  rcases drawn.chars '\n' mem with char | plus | inside
  · contradiction
  · contradiction
  · exact oneLine inside

theorem isBack_ofText {t : Text} (oneLine : '\n' ∉ t)
    (kept : (Expression.ofText t).isKept (expressionLimit + 1) = true) :
    (Expression.ofText t).IsBack := by
  have drawn := isDrawnFrom_read (expressionLimit + 1) t
  exact ⟨((isFaithful_read (expressionLimit + 1) t).kept (Nat.le_refl _) kept).1, drawn.writable,
    oneLine_of_isDrawnFrom drawn oneLine⟩

theorem isBack_true : (Expression.literal (.bool true)).IsBack :=
  ⟨Or.inr (Expression.stable_literal rfl), rfl, by decide⟩

namespace Expression.IsBack
variable {e : Expression} (back : e.IsBack)
include back

theorem text?_eq : e.text? = some e.text := by
  rw [text?, if_pos back.writable]

theorem isTrimmed : IsTrimmed e.text := isTrimmed_of_isReread back.reread

theorem ofText_eq : ofText e.text = e := by
  have read := back.reread.read (a := []) (b := []) (of_all rfl) (of_all rfl)
  rwa [List.nil_append, List.append_nil] at read

end Expression.IsBack

/-- The lines are written whole, and read as the one statement. -/
structure IsWrittenAs (nesting : Nat) (lines : List Written) (s : Statement) : Prop where
  solid : AreSolid lines
  reads : ∃ first more, textsOf lines = first :: more ∧ ReadsAs nesting first more s

theorem isWrittenAs_single {depth : Nat} {line : Text} {s : Statement}
    (single : IsSingleLine line s) (solid : IsSolidLine line) :
    IsWrittenAs 0 [⟨depth, some line⟩] s :=
  ⟨List.forall_mem_singleton.mpr ⟨line, rfl, solid⟩, line, [], rfl, single.readsAs⟩

theorem isSolidLine_fixed {line : Text} (filled : line ≠ [])
    (chars : ∀ c ∈ line, isBlank c = false) : IsSolidLine line :=
  ⟨fun mem => absurd (chars _ mem) (by decide), isTrimmed_of_solid filled chars⟩

section Assignment
variable {target : Text} (nonempty : target ≠ []) (chars : ∀ c ∈ target, isTargetChar c = true)
include nonempty chars

theorem isWrittenAs_assignment {value : Expression} (back : value.IsBack) (depth : Nat) :
    IsWrittenAs 0 ((Statement.assignment target value).lines depth)
      (.assignment target value) := by
  have single := isSingleLine_assignment nonempty chars back.isTrimmed
  rw [back.ofText_eq] at single
  rw [Statement.lines, Written.around, back.text?_eq, Option.map_some]
  apply isWrittenAs_single single
  constructor
  · simp only [List.mem_append, not_or]
    refine ⟨⟨⟨fun mem => ?_, by decide⟩, back.oneLine⟩, by decide⟩
    exact absurd (chars _ mem) (by decide)
  · have semicolon : IsTrimmed [';'] := isTrimmed_of_solid (by simp) (of_all rfl)
    have trimmed := isTrimmed_target nonempty chars
    rw [List.append_assoc target]
    exact trimmed.between semicolon _

end Assignment

theorem isWrittenAs_call {t name blanks inner : Text} (call : IsCallText t name blanks inner)
    (noConditional : name ≠ "IF".toList) (oneLine : '\n' ∉ t)
    (kept : ∀ u ∈ argumentTexts inner, (Expression.read callLevels u).isKept callLevels = true)
    (depth : Nat) :
    IsWrittenAs 0
      ((Statement.call name name
        ((argumentTexts inner).map (Expression.read callLevels))).lines depth)
      (.call name name ((argumentTexts inner).map (Expression.read callLevels))) := by
  have word : Name name := ⟨call.nonempty, call.letters⟩
  have back (u : Text) (mem : u ∈ argumentTexts inner) :=
    (isFaithful_read callLevels u).kept (Nat.le_refl _) (kept u mem)
  have apart : AreArguments
      (((argumentTexts inner).map (Expression.read callLevels)).map Expression.text) :=
    areArguments_read call.balanced fun u mem => (back u mem).2
  have drawn : IsDrawnFrom
      (.call name ((argumentTexts inner).map (Expression.read callLevels))) t :=
    call.isDrawnFrom fun u _ => isDrawnFrom_read callLevels u
  have reread : ∀ e ∈ (argumentTexts inner).map (Expression.read callLevels),
      e.IsReread callLevels := by
    intro e read
    obtain ⟨u, mem, rfl⟩ := List.mem_map.mp read
    exact (back u mem).1
  generalize (argumentTexts inner).map (Expression.read callLevels) = arguments at *
  have text : (Expression.call name arguments).text? =
      some (Expression.call name arguments).text := by
    rw [Expression.text?, if_pos drawn.writable]
  rw [Statement.lines, Written.around, text, Option.map_some, List.nil_append]
  apply isWrittenAs_single (isSingleLine_call word noConditional apart reread)
  constructor
  · rw [List.mem_append, not_or]
    exact ⟨oneLine_of_isDrawnFrom drawn oneLine, by decide⟩
  · exact (isTrimmed_call word).append (isTrimmed_of_solid (by simp) (of_all rfl))

theorem isWrittenAs_conditional {condition : Expression} (back : condition.IsBack)
    {inner : List Written} {thenBranch elseBranch : List Statement} {nesting : Nat}
    (solid : AreSolid inner)
    (reads : ReadsBranches nesting (textsOf inner) thenBranch elseBranch) (depth : Nat) :
    IsWrittenAs (nesting + 1)
      (.around depth "IF ".toList condition " THEN".toList :: inner ++
        [.fixed depth "END_IF;".toList])
      (.conditional (some condition) (some thenBranch) (some elseBranch)) := by
  have line : Written.around depth "IF ".toList condition " THEN".toList =
      .fixed depth ("IF ".toList ++ condition.text ++ " THEN".toList) := by
    rw [Written.around, back.text?_eq]
    rfl
  have first : IsSolidLine ("IF ".toList ++ condition.text ++ " THEN".toList) := by
    constructor
    · simp only [List.mem_append, not_or]
      exact ⟨⟨by decide, back.oneLine⟩, by decide⟩
    · have starts : IsTrimmed "IF".toList := isTrimmed_of_solid (by decide) (of_all rfl)
      have ends : IsTrimmed "THEN".toList := isTrimmed_of_solid (by decide) (of_all rfl)
      have joined := starts.between ends ([' '] ++ condition.text ++ [' '])
      simpa using joined
  have last : IsSolidLine "END_IF;".toList := isSolidLine_fixed (by decide) (of_all rfl)
  rw [line]
  constructor
  · rw [AreSolid, List.forall_mem_append, List.forall_mem_cons, List.forall_mem_singleton]
    exact ⟨⟨⟨_, rfl, first⟩, solid⟩, ⟨_, rfl, last⟩⟩
  · refine ⟨_, _, textsOf_append (.fixed depth _ :: inner) _, ?_⟩
    exact reads.readsAs (opensBlock_conditional _) (condition_conditional back.reread)

theorem readsBody_allLines {body : List Statement} {depth : Nat}
    (each : ∀ s ∈ body, IsWrittenAs s.nesting (s.lines depth) s.completed) :
    AreSolid (Statement.allLines depth body) ∧
      ReadsBody (Statement.nestingOf body) (textsOf (Statement.allLines depth body))
        (Statement.completedAll body) := by
  induction body with
  | nil => exact ⟨fun _ mem => absurd mem List.not_mem_nil, readsBody_nil 0⟩
  | cons s rest ih =>
    obtain ⟨solid, first, more, texts, reads⟩ := each s List.mem_cons_self
    obtain ⟨solidRest, readsRest⟩ := ih fun t mem => each t (List.mem_cons_of_mem s mem)
    rw [Statement.allLines, textsOf_append, texts]
    refine ⟨List.forall_mem_append.mpr ⟨solid, solidRest⟩, ?_⟩
    exact (reads.deeper (Nat.le_max_left ..)).body (readsRest.deeper (Nat.le_max_right ..))

theorem Statement.areKept_iff (body : List Statement) :
    areKept body = true ↔ ∀ s ∈ body, s.isKept = true := by
  induction body with
  | nil => simp [areKept]
  | cons s rest ih => simp [areKept, ih]

theorem Statement.isKeptBranch_iff (branch : Option (List Statement)) :
    isKeptBranch branch = true ↔ ∀ s ∈ branch.getD [], s.isKept = true := by
  cases branch with
  | none => simp [isKeptBranch]
  | some body => exact areKept_iff body

section Branch
variable (branch : Option (List Statement))

theorem Statement.completedBranch_eq : completedBranch branch = completedAll (branch.getD []) := by
  cases branch <;> rfl

theorem Statement.branchNesting_eq : branchNesting branch = nestingOf (branch.getD []) := by
  cases branch <;> rfl

theorem Statement.branchLines_eq (depth : Nat) :
    branchLines depth branch = allLines depth (branch.getD []) := by
  cases branch <;> rfl

theorem Statement.elseLines_eq (depth : Nat) :
    elseLines depth branch = elseLines depth (some (branch.getD [])) := by
  cases branch <;> rfl

end Branch

theorem readsBranches_lines {thenBranch elseBranch : List Statement} {depth : Nat}
    (first : ∀ s ∈ thenBranch, IsWrittenAs s.nesting (s.lines (depth + 1)) s.completed)
    (second : ∀ s ∈ elseBranch, IsWrittenAs s.nesting (s.lines (depth + 1)) s.completed) :
    AreSolid (Statement.allLines (depth + 1) thenBranch ++
        Statement.elseLines depth (some elseBranch)) ∧
      ReadsBranches (max (Statement.nestingOf thenBranch) (Statement.nestingOf elseBranch))
        (textsOf (Statement.allLines (depth + 1) thenBranch ++
          Statement.elseLines depth (some elseBranch)))
        (Statement.completedAll thenBranch) (Statement.completedAll elseBranch) := by
  obtain ⟨solidThen, readsThen⟩ := readsBody_allLines first
  have readsThen := readsThen.deeper (Nat.le_max_left _ (Statement.nestingOf elseBranch))
  cases elseBranch with
  | nil =>
    rw [Statement.elseLines, List.append_nil]
    exact ⟨solidThen, readsThen.withoutElse⟩
  | cons s rest =>
    obtain ⟨solidElse, readsElse⟩ := readsBody_allLines second
    have turn : IsSolidLine "ELSE".toList := isSolidLine_fixed (by decide) (of_all rfl)
    rw [Statement.elseLines, textsOf_append]
    constructor
    · exact List.forall_mem_append.mpr
        ⟨solidThen, List.forall_mem_cons.mpr ⟨⟨_, rfl, turn⟩, solidElse⟩⟩
    · exact readsThen.withElse (readsElse.deeper (Nat.le_max_right ..))

/-- A statement that was read is written, and read from what was written, with its conditionals
    completed. -/
theorem isWrittenAs_lines {s : Statement} (read : s.IsRead) (kept : s.isKept = true) :
    ∀ depth, IsWrittenAs s.nesting (s.lines depth) s.completed := by
  induction read with
  | assignment nonempty chars oneLine =>
    exact isWrittenAs_assignment nonempty chars (isBack_ofText oneLine kept)
  | call call noConditional oneLine =>
    rw [Statement.isKept, Expression.areKept_eq_all, List.all_map, List.all_eq_true] at kept
    exact isWrittenAs_call call noConditional oneLine kept
  | @conditional t thenBranch elseBranch oneLine _ _ ihThen ihElse =>
    intro depth
    simp only [Statement.isKept, Bool.and_eq_true, Statement.isKeptBranch_iff] at kept
    obtain ⟨⟨keptCondition, keptThen⟩, keptElse⟩ := kept
    have back : ((t.map Expression.ofText).getD (.literal (.bool true))).IsBack := by
      cases t with
      | none => exact isBack_true
      | some u => exact isBack_ofText (oneLine u rfl) keptCondition
    rw [Statement.lines, Statement.branchLines_eq, Statement.elseLines_eq, Statement.completed,
      Statement.completedBranch_eq, Statement.completedBranch_eq, Statement.nesting,
      Statement.branchNesting_eq, Statement.branchNesting_eq]
    obtain ⟨solid, reads⟩ := readsBranches_lines
      (fun s mem => ihThen s mem (keptThen s mem) (depth + 1))
      (fun s mem => ihElse s mem (keptElse s mem) (depth + 1))
    have whole := isWrittenAs_conditional back solid reads depth
    exact whole

end StructuredText
