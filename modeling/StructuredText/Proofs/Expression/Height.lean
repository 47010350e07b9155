import StructuredText.Expression.Reading
import StructuredText.Proofs.Expression.Kept

/- How high an expression is, an AND or OR over the one before it included, and how deep the
   expressions are that texts are read as.  Only chains make the difference. -/
namespace StructuredText

theorem depth_chain {op : Connective} {e : Expression} {rest : List Expression} {n : Nat}
    (first : e.depth + (if e.isChain op then 0 else 1) ≤ n) (each : ∀ x ∈ rest, x.depth + 1 ≤ n) :
    (rest.foldl (.connective op) e).depth ≤ n := by
  induction rest generalizing e with
  | nil => exact Nat.le_trans (Nat.le_add_right ..) first
  | cons x rest ih =>
    apply ih
    · rw [Expression.isChain, if_pos (decide_eq_true rfl), Expression.depth]
      have := each x List.mem_cons_self
      omega
    · exact fun y mem => each y (List.mem_cons_of_mem x mem)

theorem argumentDepth_le {arguments : List Expression} {n : Nat}
    (each : ∀ x ∈ arguments, x.depth + 1 ≤ n) : Expression.argumentDepth arguments ≤ n := by
  induction arguments with
  | nil => exact Nat.zero_le n
  | cons x rest ih =>
    exact Nat.max_le.mpr ⟨each x List.mem_cons_self,
      ih fun y mem => each y (List.mem_cons_of_mem x mem)⟩

namespace Expression

/-- The levels of an expression, as it is drawn: what is compared or passed to a call takes none. -/
def height : Expression → Nat
  | .negation operand => operand.height + 1
  | .connective _ left right => max left.height right.height + 1
  | _ => 1

theorem height_pos (e : Expression) : 0 < e.height := by
  cases e <;> exact Nat.succ_pos _

/-- The most steps from a connective to the same one at its left, on the way to an operand. -/
def chained : Expression → Nat
  | .negation operand => operand.chained
  | .connective op left right => max (left.chained + if left.isChain op then 1 else 0) right.chained
  | _ => 0

theorem height_le (e : Expression) : e.height ≤ e.depth + e.chained + 1 := by
  induction e with
  | negation operand ih =>
    rw [height, depth, chained]
    omega
  | connective op left right ihl ihr =>
    rw [height, depth, chained]
    split <;> omega
  | _ => exact Nat.le_add_left ..

theorem depth_read (levels : Nat) (t : Text) : (read levels t).depth ≤ levels := by
  induction levels generalizing t with
  | zero => exact Nat.le_refl 0
  | succ levels ih =>
    have shape := Shape.of_ofStripped (stripParens t)
    rw [read, Shape.ofText]
    generalize Shape.ofStripped (stripParens t) = found at shape ⊢
    cases shape with
    | truth => exact Nat.zero_le _
    | @numeral n =>
      cases n.literal? with
      | none => exact Nat.zero_le _
      | some value => exact Nat.zero_le _
    | @negation operand => exact Nat.succ_le_succ (ih operand)
    | @chain op first second rest =>
      dsimp only
      rw [← List.foldl_map (f := read levels)]
      apply depth_chain
      · have := ih first
        split <;> omega
      · intro x mem
        obtain ⟨u, -, rfl⟩ := List.mem_map.mp mem
        exact Nat.succ_le_succ (ih u)
    | comparison => exact Nat.max_le.mpr ⟨Nat.succ_le_succ (ih _), Nat.succ_le_succ (ih _)⟩
    | @call name arguments =>
      apply argumentDepth_le
      intro x mem
      obtain ⟨u, -, rfl⟩ := List.mem_map.mp mem
      exact Nat.succ_le_succ (ih u)
    | word => exact Nat.zero_le _

end Expression
end StructuredText
