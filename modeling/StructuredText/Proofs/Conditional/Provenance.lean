import StructuredText.Proofs.Conditional.UnitStack

/- Which lines the statements of a unit come from.  The single pass leaves no branches out: a line
   that opens a block becomes a conditional with both its branches, or is open still. -/
namespace StructuredText

/-- The statement is that of one of the lines, which opens no block, or that of a block which one
    of the lines opens, its branches being made in the same way. -/
inductive ComesFrom (lines : List Text) : Statement → Prop
  | single {line : Text} {statement : Statement} : line ∈ lines → opensBlock line = false →
      Statement.ofLine? line = some statement → ComesFrom lines statement
  | block {line : Text} {thenBranch elseBranch : List Statement} : line ∈ lines →
      opensBlock line = true → (∀ s ∈ thenBranch, ComesFrom lines s) →
      (∀ s ∈ elseBranch, ComesFrom lines s) →
      ComesFrom lines (.conditional ((blockCondition? line).map Expression.ofText)
        (some thenBranch) (some elseBranch))

variable {lines : List Text}

structure OpenBlock.IsMadeOf (lines : List Text) (b : OpenBlock) : Prop where
  line : b.line ∈ lines
  opens : opensBlock b.line = true
  thenBranch : ∀ s ∈ b.thenBranch, ComesFrom lines s
  elseBranch : ∀ s ∈ b.elseBranch.getD [], ComesFrom lines s

structure BlockStack.IsMadeOf (lines : List Text) (s : BlockStack) : Prop where
  outside : ∀ statement ∈ s.outside, ComesFrom lines statement
  opened : ∀ b ∈ s.opened, b.IsMadeOf lines

namespace OpenBlock
variable {b : OpenBlock}

theorem IsMadeOf.put (made : b.IsMadeOf lines) {more : List Statement}
    (origin : ∀ s ∈ more, ComesFrom lines s) : (b.put more).IsMadeOf lines := by
  obtain ⟨line, thenBranch, elseBranch⟩ := b
  cases elseBranch with
  | none =>
    exact ⟨made.line, made.opens, List.forall_mem_append.mpr ⟨made.thenBranch, origin⟩,
      made.elseBranch⟩
  | some branch =>
    exact ⟨made.line, made.opens, made.thenBranch,
      List.forall_mem_append.mpr ⟨made.elseBranch, origin⟩⟩

theorem IsMadeOf.turn (made : b.IsMadeOf lines) : b.turn.IsMadeOf lines :=
  ⟨made.line, made.opens, made.thenBranch, made.elseBranch⟩

theorem IsMadeOf.closed (made : b.IsMadeOf lines) : ComesFrom lines b.closed := by
  rw [OpenBlock.closed, closedWith, List.append_nil, List.append_nil]
  exact .block made.line made.opens made.thenBranch made.elseBranch

theorem isMadeOf_begin {line : Text} (mem : line ∈ lines) (opens : opensBlock line = true) :
    (begin line).IsMadeOf lines :=
  ⟨mem, opens, fun _ none => absurd none List.not_mem_nil,
    fun _ none => absurd none List.not_mem_nil⟩

end OpenBlock

namespace BlockStack
variable {s : BlockStack}

theorem isMadeOf_empty : empty.IsMadeOf lines :=
  ⟨fun _ none => absurd none List.not_mem_nil, fun _ none => absurd none List.not_mem_nil⟩

theorem IsMadeOf.put (made : s.IsMadeOf lines) {more : List Statement}
    (origin : ∀ statement ∈ more, ComesFrom lines statement) : (s.put more).IsMadeOf lines := by
  obtain ⟨outside, opened⟩ := s
  cases opened with
  | nil => exact ⟨List.forall_mem_append.mpr ⟨made.outside, origin⟩, made.opened⟩
  | cons b outer =>
    obtain ⟨here, others⟩ := List.forall_mem_cons.mp made.opened
    exact ⟨made.outside, List.forall_mem_cons.mpr ⟨here.put origin, others⟩⟩

theorem IsMadeOf.turn (made : s.IsMadeOf lines) : s.turn.IsMadeOf lines := by
  obtain ⟨outside, opened⟩ := s
  cases opened with
  | nil => exact made
  | cons b outer =>
    obtain ⟨here, others⟩ := List.forall_mem_cons.mp made.opened
    exact ⟨made.outside, List.forall_mem_cons.mpr ⟨here.turn, others⟩⟩

theorem IsMadeOf.close (made : s.IsMadeOf lines) : s.close.IsMadeOf lines := by
  obtain ⟨outside, opened⟩ := s
  cases opened with
  | nil => exact made
  | cons b outer =>
    obtain ⟨here, others⟩ := List.forall_mem_cons.mp made.opened
    have outer : IsMadeOf lines ⟨outside, outer⟩ := ⟨made.outside, others⟩
    apply outer.put
    intro statement mem
    rw [List.mem_singleton.mp mem]
    exact here.closed

theorem IsMadeOf.step (made : s.IsMadeOf lines) {line : Text} (mem : line ∈ lines) :
    (s.step line).IsMadeOf lines := by
  rcases bodyLine_cases line with rfl | rfl | closes | content
  · rwa [step_blank]
  · rw [step_else]
    exact made.turn
  · rw [step_close _ closes]
    exact made.close
  · cases opens : opensBlock line with
    | true =>
      rw [step_opening _ opens]
      exact ⟨made.outside,
        List.forall_mem_cons.mpr ⟨OpenBlock.isMadeOf_begin mem opens, made.opened⟩⟩
    | false =>
      rw [step_single _ content opens]
      apply made.put
      intro statement found
      exact .single mem opens (Option.mem_toList.mp found)

end BlockStack

namespace UnitStack

theorem isMadeOf_step {kind : PouKind} {s : UnitStack} (made : s.blocks.IsMadeOf lines) {line : Text}
    (mem : line ∈ lines) : (s.step kind line).blocks.IsMadeOf lines := by
  unfold step
  split
  · exact made
  · split
    · split
      · exact made
      · exact made
      · exact made
      · exact made
      · exact made
      · split
        · exact made
        · exact made.step mem
    · exact made.step mem

theorem isMadeOf_foldl {kind : PouKind} {s : UnitStack} (made : s.blocks.IsMadeOf lines)
    {used : List Text} (inside : used ⊆ lines) :
    (used.foldl (step kind) s).blocks.IsMadeOf lines := by
  induction used generalizing s with
  | nil => exact made
  | cons line rest ih =>
    obtain ⟨mem, later⟩ := List.cons_subset.mp inside
    exact ih (isMadeOf_step made mem) later

theorem isMadeOf_run (kind : PouKind) (lines : List Text) :
    (run kind lines).blocks.IsMadeOf lines :=
  isMadeOf_foldl BlockStack.isMadeOf_empty (List.Subset.refl lines)

end UnitStack
end StructuredText
