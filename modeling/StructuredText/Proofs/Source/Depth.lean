import Mathlib.Algebra.Ring.Int.Defs
import StructuredText.Source.Nesting

/- Where a text is outside its parentheses: the depth there is zero, as many having opened as closed.
   A search takes one step for each character, whatever the character is. -/
namespace StructuredText

def parenStep (c : Char) : Int := if c = '(' then 1 else if c = ')' then -1 else 0

/-- How much deeper it is behind a text; below zero where more is closed than was opened. -/
def parenDepth (t : Text) : Int := (t.map parenStep).sum

theorem parenStep_eq_zero_iff {c : Char} : parenStep c = 0 ↔ c ≠ '(' ∧ c ≠ ')' := by
  rw [parenStep]
  split
  · next opens => simp [opens]
  · next opens => split <;> simp_all

theorem parenDepth_cons (c : Char) (t : Text) : parenDepth (c :: t) = parenStep c + parenDepth t := by
  rw [parenDepth, List.map_cons, List.sum_cons]
  rfl

theorem parenDepth_append (s t : Text) : parenDepth (s ++ t) = parenDepth s + parenDepth t := by
  rw [parenDepth, List.map_append, List.sum_append]
  rfl

theorem parenDepth_of_free {t : Text} (free : ∀ c ∈ t, c ≠ '(' ∧ c ≠ ')') : parenDepth t = 0 := by
  induction t with
  | nil => rfl
  | cons c t ih =>
    obtain ⟨here, later⟩ := List.forall_mem_cons.mp free
    rw [parenDepth_cons, parenStep_eq_zero_iff.mpr here, ih later, Int.add_zero]

theorem parenDepth_eq_zero_iff (t : Text) : parenDepth t = 0 ↔ t.count '(' = t.count ')' := by
  have difference : parenDepth t = (t.count '(' : Int) - t.count ')' := by
    induction t with
    | nil => rfl
    | cons c t ih =>
      rw [parenDepth_cons, ih, parenStep, List.count_cons, List.count_cons]
      by_cases opens : c = '('
      · subst opens
        simp
        omega
      · by_cases closes : c = ')'
        · subst closes
          simp
          omega
        · simp [opens, closes]
  rw [difference]
  omega

section Search
variable {symbol : Text}

theorem topLevelFrom_cons (symbol : Text) (depth : Int) (c : Char) (t : Text) :
    topLevelFrom symbol depth (c :: t) =
      if depth = 0 ∧ parenStep c = 0 ∧ symbol <+: c :: t then some 0
      else (topLevelFrom symbol (depth + parenStep c) t).map (· + 1) := by
  rw [topLevelFrom]
  by_cases opens : c = '('
  · have step : parenStep c = 1 := by rw [parenStep, if_pos opens]
    rw [if_pos opens, step, if_neg fun here => absurd here.2.1 (by decide)]
  · by_cases closes : c = ')'
    · have step : parenStep c = -1 := by rw [parenStep, if_neg opens, if_pos closes]
      rw [if_neg opens, if_pos closes, step, if_neg fun here => absurd here.2.1 (by decide)]
      rfl
    · rw [if_neg opens, if_neg closes, parenStep_eq_zero_iff.mpr ⟨opens, closes⟩, Int.add_zero]
      simp only [List.isPrefixOf_iff_prefix, true_and]

theorem prefix_of_topLevelFrom {t : Text} {depth : Int} {n : Nat}
    (found : topLevelFrom symbol depth t = some n) : symbol <+: t.drop n := by
  induction t generalizing depth n with
  | nil => contradiction
  | cons c t ih =>
    rw [topLevelFrom_cons] at found
    split at found
    · next here =>
      obtain rfl := Option.some.inj found
      exact here.2.2
    · obtain ⟨m, inner, rfl⟩ := Option.map_eq_some_iff.mp found
      exact ih inner

theorem append_of_topLevelFrom {t : Text} {depth : Int} {n : Nat}
    (found : topLevelFrom symbol depth t = some n) :
    t.take n ++ symbol ++ t.drop (n + symbol.length) = t := by
  obtain ⟨behind, here⟩ := prefix_of_topLevelFrom found
  rw [← List.drop_drop, ← here, List.drop_left, List.append_assoc, here, List.take_append_drop]

theorem topLevelFrom_take {t : Text} {depth : Int} {n : Nat}
    (found : topLevelFrom symbol depth t = some n) : topLevelFrom symbol depth (t.take n) = none := by
  induction t generalizing depth n with
  | nil => contradiction
  | cons c t ih =>
    rw [topLevelFrom_cons] at found
    split at found
    · obtain rfl := Option.some.inj found
      rfl
    · next passed =>
      obtain ⟨m, inner, rfl⟩ := Option.map_eq_some_iff.mp found
      have still : ¬ (depth = 0 ∧ parenStep c = 0 ∧ symbol <+: c :: t.take m) := by
        rintro ⟨level, solid, starts⟩
        exact passed ⟨level, solid, starts.trans (List.cons_prefix_cons.mpr ⟨rfl, t.take_prefix m⟩)⟩
      rw [List.take_succ_cons, topLevelFrom_cons, if_neg still, ih inner, Option.map_none]

end Search

/-- The symbol occurs where as many parentheses have opened as closed. -/
def StandsOutside (symbol t : Text) : Prop :=
  ∃ before, before ++ symbol <+: t ∧ before.count '(' = before.count ')'

section Outside
variable {d : Char} {symbol : Text} (solid : d ≠ '(' ∧ d ≠ ')')
include solid

theorem isSome_topLevelFrom {depth : Int} {t : Text} :
    (topLevelFrom (d :: symbol) depth t).isSome = true ↔
      ∃ before, before ++ d :: symbol <+: t ∧ depth + parenDepth before = 0 := by
  induction t generalizing depth with
  | nil => simp [topLevelFrom]
  | cons c t ih =>
    rw [topLevelFrom_cons]
    split
    · next here => exact iff_of_true rfl ⟨[], here.2.2, by rw [here.1]; rfl⟩
    · next elsewhere =>
      rw [Option.isSome_map, ih]
      constructor
      · rintro ⟨before, inside, level⟩
        refine ⟨c :: before, List.cons_prefix_cons.mpr ⟨rfl, inside⟩, ?_⟩
        rw [parenDepth_cons]
        omega
      · rintro ⟨before, inside, level⟩
        cases before with
        | nil =>
          have step : parenStep c = 0 :=
            parenStep_eq_zero_iff.mpr ((List.cons_prefix_cons.mp inside).1 ▸ solid)
          exact absurd ⟨by simpa [parenDepth] using level, step, inside⟩ elsewhere
        | cons e before =>
          obtain ⟨rfl, later⟩ := List.cons_prefix_cons.mp inside
          rw [parenDepth_cons] at level
          exact ⟨before, later, by omega⟩

theorem standsOutside_iff {t : Text} :
    StandsOutside (d :: symbol) t ↔ (topLevelFrom (d :: symbol) 0 t).isSome = true := by
  rw [isSome_topLevelFrom solid]
  simp only [Int.zero_add, parenDepth_eq_zero_iff]
  rfl

end Outside

end StructuredText
