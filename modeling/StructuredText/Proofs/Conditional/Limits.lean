import StructuredText.Proofs.Conditional.Account
import StructuredText.Proofs.Conditional.BlockNesting
import StructuredText.Proofs.Expression.Height

/- The limits on nesting as they show in what is read: how many blocks lie around a statement, and how
   long the ways down through its expressions are. -/
namespace StructuredText

/-- A way down through an expression and the edges on it, those from a connective to the same one at
    its left not counted. -/
inductive Expression.Path : Expression → Nat → Expression → Prop
  | here {e : Expression} : Path e 0 e
  | negated {operand leaf : Expression} {edges : Nat} (further : Path operand edges leaf) :
    Path (.negation operand) (edges + 1) leaf
  | left {op : Connective} {left right leaf : Expression} {edges : Nat}
    (further : Path left edges leaf) :
    Path (.connective op left right) (edges + if left.isChain op then 0 else 1) leaf
  | right {op : Connective} {left right leaf : Expression} {edges : Nat}
    (further : Path right edges leaf) : Path (.connective op left right) (edges + 1) leaf
  | compared {op : Comparison} {left right side leaf : Expression} {edges : Nat}
    (either : side = left ∨ side = right) (further : Path side edges leaf) :
    Path (.comparison op left right) (edges + 1) leaf
  | argument {name : Text} {arguments : List Expression} {e leaf : Expression} {edges : Nat}
    (mem : e ∈ arguments) (further : Path e edges leaf) :
    Path (.call name arguments) (edges + 1) leaf

theorem Expression.Path.le_depth {e leaf : Expression} {edges : Nat} (path : e.Path edges leaf) :
    edges ≤ e.depth := by
  induction path with
  | here => exact Nat.zero_le _
  | negated further ih => exact Nat.succ_le_succ ih
  | left further ih => exact Nat.le_trans (Nat.add_le_add_right ih _) (Nat.le_max_left ..)
  | right further ih => exact Nat.le_trans (Nat.succ_le_succ ih) (Nat.le_max_right ..)
  | compared either further ih =>
    rw [depth]
    rcases either with rfl | rfl
    · exact Nat.le_trans (Nat.succ_le_succ ih) (Nat.le_max_left ..)
    · exact Nat.le_trans (Nat.succ_le_succ ih) (Nat.le_max_right ..)
  | argument mem further ih => exact Nat.lt_of_le_of_lt ih (depth_lt_argumentDepth mem)

def Statement.isBlock : Statement → Bool
  | .conditional _ thenBranch elseBranch => thenBranch.isSome || elseBranch.isSome
  | _ => false

def Statement.expressions : Statement → List Expression
  | .assignment _ value => [value]
  | .conditional condition _ _ => condition.toList
  | .call _ name arguments => [.call name arguments]
  | .forLoop _ => []
  | .whileLoop condition _ => condition.toList
  | .ret value => value.toList

/-- The statement stands somewhere in the list, with so many blocks around it. -/
inductive LiesInside : Nat → Statement → List Statement → Prop
  | here {s : Statement} {statements : List Statement} (mem : s ∈ statements) :
    LiesInside 0 s statements
  | block {blocks : Nat} {s : Statement} {condition : Option Expression}
    {thenBranch elseBranch : Option (List Statement)} {branch statements : List Statement}
    (mem : .conditional condition thenBranch elseBranch ∈ statements)
    (side : branch ∈ thenBranch ∨ branch ∈ elseBranch) (inner : LiesInside blocks s branch) :
    LiesInside (blocks + 1) s statements
  | forLoop {blocks : Nat} {s : Statement} {body statements : List Statement}
    (mem : .forLoop body ∈ statements) (inner : LiesInside blocks s body) :
    LiesInside blocks s statements
  | whileLoop {blocks : Nat} {s : Statement} {condition : Option Expression}
    {body statements : List Statement} (mem : .whileLoop condition body ∈ statements)
    (inner : LiesInside blocks s body) : LiesInside blocks s statements

namespace Statement.IsFound

theorem of_single {line : Text} {s : Statement} (read : Statement.ofLine? line = some s) :
    ∃ clause, s = Clause.statement clause := by
  obtain ⟨clause, -, rfl⟩ := Option.map_eq_some_iff.mp read
  exact ⟨clause, rfl⟩

theorem not_forLoop {body : List Statement} : ¬ (Statement.forLoop body).IsFound := by
  intro found
  cases found with
  | single read =>
    obtain ⟨clause, same⟩ := of_single read
    cases clause <;> contradiction

theorem not_whileLoop {condition : Option Expression} {body : List Statement} :
    ¬ (Statement.whileLoop condition body).IsFound := by
  intro found
  cases found with
  | single read =>
    obtain ⟨clause, same⟩ := of_single read
    cases clause <;> contradiction

theorem of_mem_branch {condition : Option Expression}
    {thenBranch elseBranch : Option (List Statement)} {branch : List Statement}
    (found : (Statement.conditional condition thenBranch elseBranch).IsFound)
    (side : branch ∈ thenBranch ∨ branch ∈ elseBranch) : ∀ s ∈ branch, s.IsFound := by
  cases found with
  | single read =>
    obtain ⟨clause, same⟩ := of_single read
    cases clause with
    | assignment target value => contradiction
    | call name arguments => contradiction
    | conditional condition =>
      obtain ⟨-, rfl, rfl⟩ := Statement.conditional.inj same
      rcases side with none | none <;> exact absurd none (Option.not_mem_none branch)
  | block inThen inElse =>
    rcases side with same | same
    · obtain rfl := Option.some.inj same
      exact inThen
    · obtain rfl := Option.some.inj same
      exact inElse

theorem depth_le {s : Statement} (found : s.IsFound) :
    ∀ e ∈ s.expressions, e.depth ≤ expressionLimit + 1 := by
  cases found with
  | single read =>
    obtain ⟨clause, rfl⟩ := of_single read
    cases clause with
    | assignment target value => exact List.forall_mem_singleton.mpr (Expression.depth_read _ value)
    | conditional condition =>
      intro e mem
      obtain ⟨t, -, rfl⟩ := Option.map_eq_some_iff.mp (Option.mem_toList.mp mem)
      exact Expression.depth_read _ t
    | call name arguments =>
      refine List.forall_mem_singleton.mpr (argumentDepth_le fun e mem => ?_)
      obtain ⟨t, -, rfl⟩ := List.mem_map.mp mem
      exact Nat.succ_le_succ (Expression.depth_read callLevels t)
  | block =>
    intro e mem
    obtain ⟨t, -, rfl⟩ := Option.map_eq_some_iff.mp (Option.mem_toList.mp mem)
    exact Expression.depth_read _ t

end Statement.IsFound

namespace LiesInside
variable {blocks : Nat} {s : Statement} {statements : List Statement}

theorem isFound (inside : LiesInside blocks s statements) (found : ∀ s ∈ statements, s.IsFound) :
    s.IsFound := by
  induction inside with
  | here mem => exact found _ mem
  | block mem side inner ih => exact ih ((found _ mem).of_mem_branch side)
  | forLoop mem inner ih => exact absurd (found _ mem) Statement.IsFound.not_forLoop
  | whileLoop mem inner ih => exact absurd (found _ mem) Statement.IsFound.not_whileLoop

theorem add_blockNesting_le (inside : LiesInside blocks s statements)
    (found : ∀ s ∈ statements, s.IsFound) :
    blocks + s.blockNesting ≤ Statement.blockNestingOf statements := by
  induction inside with
  | here mem =>
    rw [Nat.zero_add]
    exact blockNesting_le_of_mem mem
  | @block blocks s condition thenBranch elseBranch branch statements mem side inner ih =>
    have within := ih ((found _ mem).of_mem_branch side)
    have around : Statement.blockNestingOf branch + 1 ≤
        (Statement.conditional condition thenBranch elseBranch).blockNesting := by
      rcases side with rfl | rfl
      · exact Nat.le_max_left ..
      · exact Nat.le_max_right ..
    have whole := blockNesting_le_of_mem mem
    omega
  | forLoop mem inner ih => exact absurd (found _ mem) Statement.IsFound.not_forLoop
  | whileLoop mem inner ih => exact absurd (found _ mem) Statement.IsFound.not_whileLoop

end LiesInside

theorem blockNestingOf_le_of_forall {statements : List Statement} {limit : Nat}
    (each : ∀ s ∈ statements, s.blockNesting ≤ limit) :
    Statement.blockNestingOf statements ≤ limit := by
  induction statements with
  | nil => exact Nat.zero_le _
  | cons s rest ih =>
    obtain ⟨here, later⟩ := List.forall_mem_cons.mp each
    exact Nat.max_le.mpr ⟨here, ih later⟩

theorem Statement.blockNesting_pos {s : Statement} (block : s.isBlock = true) :
    0 < s.blockNesting := by
  cases s with
  | conditional condition thenBranch elseBranch =>
    rcases Bool.or_eq_true_iff.mp block with some | some
    · obtain ⟨branch, rfl⟩ := Option.isSome_iff_exists.mp some
      exact Nat.lt_of_lt_of_le (Nat.succ_pos _) (Nat.le_max_left ..)
    · obtain ⟨branch, rfl⟩ := Option.isSome_iff_exists.mp some
      exact Nat.lt_of_lt_of_le (Nat.succ_pos _) (Nat.le_max_right ..)
  | _ => contradiction

/-- Whatever the source: fewer blocks than the limit lie around a block, and no way down through an
    expression is more than one edge longer than the limit for expressions. -/
theorem limits_of_ofSource? {source : Text} {pou : Pou} (read : Pou.ofSource? source = some pou)
    {blocks : Nat} {s : Statement} (inside : LiesInside blocks s pou.statements) :
    (s.isBlock = true → blocks < blockLimit) ∧
      ∀ e ∈ s.expressions, ∀ edges leaf, e.Path edges leaf → edges ≤ expressionLimit + 1 := by
  have found := isFound_of_ofSource? read
  refine ⟨fun block => ?_, fun e mem edges leaf path => ?_⟩
  · have within : Statement.blockNestingOf pou.statements ≤ blockLimit :=
      blockNestingOf_le_of_forall fun s mem => blockNesting_le_blockLimit read mem
    have nested := inside.add_blockNesting_le found
    have own := Statement.blockNesting_pos block
    omega
  · exact Nat.le_trans path.le_depth ((inside.isFound found).depth_le e mem)

def innerBlock : Statement :=
  .conditional (some (.connective .and (.variable "c".toList) (.negation (.variable "d".toList))))
    (some [.assignment "x".toList (.variable "y".toList)]) (some [])

def unclosedProgram : Text :=
  "PROGRAM P\nIF a THEN\nIF b THEN\nIF c AND NOT d THEN\nx := y;\nEND_IF\nEND_IF\nEND_PROGRAM".toList

theorem limits_of_ofSource?_unclosed :
    ∃ pou, Pou.ofSource? unclosedProgram = some pou ∧ LiesInside 1 innerBlock pou.statements ∧
      innerBlock.isBlock = true ∧ 1 < blockLimit ∧ ∃ e ∈ innerBlock.expressions,
        e.Path 2 (.variable "d".toList) ∧ 2 ≤ expressionLimit + 1 := by
  obtain ⟨pou, read, statements⟩ : ∃ pou, Pou.ofSource? unclosedProgram = some pou ∧
      pou.statements = [.conditional (some (.variable "a".toList)) none none,
        .conditional (some (.variable "b".toList)) (some [innerBlock]) (some [])] := ⟨_, rfl, rfl⟩
  have inside : LiesInside 1 innerBlock pou.statements := by
    rw [statements]
    exact .block (List.mem_cons_of_mem _ List.mem_cons_self) (Or.inl rfl) (.here List.mem_cons_self)
  obtain ⟨block, expressions⟩ := limits_of_ofSource? read inside
  have path : Expression.Path (.connective .and (.variable "c".toList)
      (.negation (.variable "d".toList))) 2 (.variable "d".toList) := .right (.negated .here)
  refine ⟨pou, read, inside, rfl, block rfl, _, List.mem_singleton_self _, path, ?_⟩
  exact expressions _ (List.mem_singleton_self _) _ _ path

end StructuredText
