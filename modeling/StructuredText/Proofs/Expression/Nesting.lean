import StructuredText.Expression.Shape
import StructuredText.Expression.Writing
import StructuredText.Proofs.Text.Boundary

/- Texts whose parentheses match.  A scan that keeps count of the parentheses passes over such a
   text inside parentheses without noticing anything in it. -/
namespace StructuredText

inductive Balanced : Text → Prop
  | nil : Balanced []
  | char {c : Char} {t : Text} (opens : c ≠ '(') (closes : c ≠ ')') (rest : Balanced t) :
    Balanced (c :: t)
  | group {g t : Text} (inner : Balanced g) (rest : Balanced t) : Balanced (parenthesized g ++ t)

theorem Balanced.append {s t : Text} (left : Balanced s) (right : Balanced t) :
    Balanced (s ++ t) := by
  induction left with
  | nil => exact right
  | char opens closes rest ih => exact Balanced.char opens closes ih
  | group inner rest _ ih =>
    rw [List.append_assoc]
    exact Balanced.group inner ih

theorem balanced_of_free {t : Text} (free : ∀ c ∈ t, c ≠ '(' ∧ c ≠ ')') : Balanced t := by
  induction t with
  | nil => exact Balanced.nil
  | cons c t ih =>
    obtain ⟨opens, closes⟩ := free c (by simp)
    exact Balanced.char opens closes (ih fun d mem => free d (by simp [mem]))

theorem parenthesized_append (g t : Text) : parenthesized g ++ t = '(' :: (g ++ ')' :: t) := by
  simp [parenthesized]

theorem balanced_parenthesized {g : Text} (inner : Balanced g) : Balanced (parenthesized g) := by
  simpa using Balanced.group inner Balanced.nil

def prepend (s : Text) (cut : Text × Text) : Text × Text := (s ++ cut.1, cut.2)

theorem map_prepend_prepend (s t : Text) (cut : Option (Text × Text)) :
    (cut.map (prepend t)).map (prepend s) = cut.map (prepend (s ++ t)) := by
  cases cut <;> simp [prepend]

theorem map_prepend_nil (cut : Option (Text × Text)) : cut.map (prepend []) = cut := by
  cases cut <;> rfl

/-- The character before what follows `t`. -/
def lastOf (previous : Option Char) : Text → Option Char
  | [] => previous
  | c :: t => lastOf (some c) t

theorem lastOf_append (previous : Option Char) (s t : Text) :
    lastOf previous (s ++ t) = lastOf (lastOf previous s) t := by
  induction s generalizing previous with
  | nil => rfl
  | cons c s ih => exact ih (some c)

theorem map_add_add (n m : Nat) (found : Option Nat) :
    (found.map (· + n)).map (· + m) = found.map (· + (n + m)) := by
  cases found <;> simp [Nat.add_assoc]

section Steps
variable (word : Text) (previous : Option Char) (depth : Int) (t : Text)

theorem cutAtTopWord_open :
    cutAtTopWord? word previous depth ('(' :: t) =
      (cutAtTopWord? word (some '(') (depth + 1) t).map (prepend ['(']) := by
  rw [cutAtTopWord?, if_pos rfl]
  rfl

theorem cutAtTopWord_close :
    cutAtTopWord? word previous depth (')' :: t) =
      (cutAtTopWord? word (some ')') (depth - 1) t).map (prepend [')']) := by
  rw [cutAtTopWord?, if_neg (by decide), if_pos rfl]
  rfl

theorem cutAtTopWord_pass {c : Char} (opens : c ≠ '(') (closes : c ≠ ')')
    (pass : (decide (depth = 0) && atWordStart previous && startsWithWord word (c :: t)) = false) :
    cutAtTopWord? word previous depth (c :: t) =
      (cutAtTopWord? word (some c) depth t).map (prepend [c]) := by
  rw [cutAtTopWord?, if_neg opens, if_neg closes, pass]
  rfl

theorem topLevelFrom_open (symbol : Text) :
    topLevelFrom symbol depth ('(' :: t) = (topLevelFrom symbol (depth + 1) t).map (· + 1) := by
  rw [topLevelFrom, if_pos rfl]

theorem topLevelFrom_close (symbol : Text) :
    topLevelFrom symbol depth (')' :: t) = (topLevelFrom symbol (depth - 1) t).map (· + 1) := by
  rw [topLevelFrom, if_neg (by decide), if_pos rfl]

theorem topLevelFrom_pass {symbol : Text} {c : Char} (opens : c ≠ '(') (closes : c ≠ ')')
    (pass : ¬ (depth = 0 ∧ symbol.isPrefixOf (c :: t) = true)) :
    topLevelFrom symbol depth (c :: t) = (topLevelFrom symbol depth t).map (· + 1) := by
  rw [topLevelFrom, if_neg opens, if_neg closes, if_neg pass]

theorem closingFrom_open :
    closingFrom depth ('(' :: t) = (closingFrom (depth + 1) t).map (· + 1) := by
  rw [closingFrom, if_pos rfl]

end Steps

theorem topLevelFrom_skip {d : Char} {symbol s : Text}
    (free : ∀ c ∈ s, c ≠ '(' ∧ c ≠ ')' ∧ c ≠ d) (t : Text) :
    topLevelFrom (d :: symbol) 0 (s ++ t) =
      (topLevelFrom (d :: symbol) 0 t).map (· + s.length) := by
  induction s with
  | nil => simp
  | cons c s ih =>
    obtain ⟨here, later⟩ := List.forall_mem_cons.mp free
    have differ : (d == c) = false := beq_eq_false_iff_ne.mpr (Ne.symm here.2.2)
    have pass : ¬ ((0 : Int) = 0 ∧ (d :: symbol).isPrefixOf (c :: (s ++ t)) = true) := by
      rw [List.isPrefixOf_cons_cons, differ, Bool.false_and]
      exact fun found => Bool.false_ne_true found.2
    rw [List.cons_append, topLevelFrom_pass _ _ here.1 here.2.1 pass, ih later, map_add_add]
    rfl

theorem length_parenthesized (g : Text) : (parenthesized g).length = g.length + 2 := by
  simp [parenthesized]

section Inside
variable {t : Text} (balanced : Balanced t) (rest : Text) {depth : Int} (inside : 0 < depth)
include balanced inside

theorem closingFrom_inside :
    closingFrom depth (t ++ rest) = (closingFrom depth rest).map (· + t.length) := by
  induction balanced generalizing depth rest with
  | nil => simp
  | char opens closes _ ih =>
    rw [List.cons_append, closingFrom, if_neg opens, if_neg closes, ih rest inside, map_add_add]
    rfl
  | @group g t _ _ ihg ih =>
    have deeper : depth + 1 ≠ 1 := by omega
    have size : t.length + 1 + g.length + 1 = (parenthesized g ++ t).length := by
      rw [List.length_append, length_parenthesized]
      omega
    rw [List.append_assoc, parenthesized_append, closingFrom_open,
      ihg _ (by omega : 0 < depth + 1), closingFrom, if_neg (by decide), if_pos rfl,
      if_neg deeper, Int.add_sub_cancel, ih rest inside, map_add_add, map_add_add, map_add_add,
      ← Nat.add_assoc, ← Nat.add_assoc, size]

theorem topLevelFrom_inside (symbol : Text) :
    topLevelFrom symbol depth (t ++ rest) =
      (topLevelFrom symbol depth rest).map (· + t.length) := by
  induction balanced generalizing depth rest with
  | nil => simp
  | char opens closes _ ih =>
    have deep : depth ≠ 0 := by omega
    rw [List.cons_append, topLevelFrom_pass _ _ opens closes (fun top => deep top.1),
      ih rest inside, map_add_add]
    rfl
  | @group g t _ _ ihg ih =>
    have size : t.length + 1 + g.length + 1 = (parenthesized g ++ t).length := by
      rw [List.length_append, length_parenthesized]
      omega
    rw [List.append_assoc, parenthesized_append, topLevelFrom_open,
      ihg _ (by omega : 0 < depth + 1), topLevelFrom_close, Int.add_sub_cancel, ih rest inside,
      map_add_add, map_add_add, map_add_add, ← Nat.add_assoc, ← Nat.add_assoc, size]

theorem cutAtTopWord_inside (word : Text) (previous : Option Char) :
    cutAtTopWord? word previous depth (t ++ rest) =
      (cutAtTopWord? word (lastOf previous t) depth rest).map (prepend t) := by
  induction balanced generalizing depth rest previous with
  | nil => exact (map_prepend_nil _).symm
  | @char c t opens closes _ ih =>
    have deep : decide (depth = 0) = false := decide_eq_false (by omega)
    rw [List.cons_append, cutAtTopWord_pass _ _ _ _ opens closes (by rw [deep]; rfl),
      ih rest inside]
    exact map_prepend_prepend [c] t _
  | @group g t _ _ ihg ih =>
    rw [List.append_assoc, parenthesized_append, cutAtTopWord_open,
      ihg _ (by omega : 0 < depth + 1), cutAtTopWord_close, Int.add_sub_cancel, ih rest inside,
      map_prepend_prepend, map_prepend_prepend, map_prepend_prepend, lastOf_append]
    simp [parenthesized, lastOf, lastOf_append]

end Inside

theorem topLevelFrom_group {g : Text} (inner : Balanced g) (symbol rest : Text) :
    topLevelFrom symbol 0 (parenthesized g ++ rest) =
      (topLevelFrom symbol 0 rest).map (· + (parenthesized g).length) := by
  rw [parenthesized_append, topLevelFrom_open, topLevelFrom_inside inner _ (by decide),
    topLevelFrom_close, map_add_add, map_add_add, length_parenthesized, Nat.add_comm 1,
    Nat.add_assoc]
  rfl

theorem cutAtTopWord_group {g : Text} (inner : Balanced g) (word rest : Text)
    (previous : Option Char) :
    cutAtTopWord? word previous 0 (parenthesized g ++ rest) =
      (cutAtTopWord? word (some ')') 0 rest).map (prepend (parenthesized g)) := by
  rw [parenthesized_append, cutAtTopWord_open, cutAtTopWord_inside inner _ (by decide),
    cutAtTopWord_close, map_prepend_prepend, map_prepend_prepend]
  simp [parenthesized]

theorem closingFrom_group {g : Text} (inner : Balanced g) (rest : Text) :
    closingFrom 0 (parenthesized g ++ rest) = some (g.length + 1) := by
  rw [parenthesized_append, closingFrom_open, closingFrom_inside inner _ (by decide), closingFrom,
    if_neg (by decide), if_pos rfl, if_pos (by decide)]
  simp

theorem isEnclosed_parenthesized {g : Text} (inner : Balanced g) :
    isEnclosed (parenthesized g) = true := by
  have closing := closingFrom_group inner []
  rw [List.append_nil] at closing
  simp [isEnclosed, matchingParen?, closing, length_parenthesized]
  rfl

theorem isEnclosed_append {s rest : Text} (balanced : Balanced s) (nonempty : s ≠ [])
    (more : rest ≠ []) : isEnclosed (s ++ rest) = false := by
  cases balanced with
  | nil => contradiction
  | char opens _ _ => simp [isEnclosed, opens]
  | @group g t inner _ =>
    have closing := closingFrom_group inner (t ++ rest)
    have longer := List.length_pos_iff.mpr more
    have place : g.length + 1 ≠ (parenthesized g ++ (t ++ rest)).length - 1 := by
      simp only [List.length_append, length_parenthesized]
      omega
    rw [isEnclosed, matchingParen?, List.append_assoc, List.drop_zero, closing, Option.map_some,
      Nat.zero_add, Bool.and_eq_false_iff]
    exact Or.inr (decide_eq_false fun same => place (Option.some.inj same))

theorem isEnclosed_of_head {t : Text} (head : t.head? ≠ some '(') : isEnclosed t = false := by
  simp [isEnclosed, head]

theorem isTrimmed_parenthesized (t : Text) : IsTrimmed (parenthesized t) := by
  refine ⟨⟨'(', rfl, by decide⟩, ⟨')', ?_, by decide⟩⟩
  rw [parenthesized, ← List.cons_append, List.getLast?_append]
  rfl

theorem stripParensWithin_bare {t : Text} (bare : isEnclosed t = false) (pairs : Nat) :
    stripParensWithin pairs t = t := by
  cases pairs with
  | zero => rfl
  | succ pairs => rw [stripParensWithin, if_neg (by simp [bare])]

section Strip
variable {a t b : Text} (trimmed : IsTrimmed t) (bare : isEnclosed t = false)
  (left : ∀ c ∈ a, isBlank c = true) (right : ∀ c ∈ b, isBlank c = true)
include trimmed bare left right

theorem stripParens_bare : stripParens (a ++ t ++ b) = t := by
  rw [stripParens, trim_surrounded trimmed left right, stripParensWithin_bare bare]

theorem stripParens_parenthesized (balanced : Balanced t) :
    stripParens (a ++ parenthesized t ++ b) = t := by
  have inner : ((parenthesized t).drop 1).dropLast = t := by simp [parenthesized]
  have some_pairs :
      (a ++ parenthesized t ++ b).length = a.length + t.length + b.length + 1 + 1 := by
    simp only [List.length_append, length_parenthesized]
    omega
  rw [stripParens, trim_surrounded (isTrimmed_parenthesized t) left right, some_pairs,
    stripParensWithin, if_pos (isEnclosed_parenthesized balanced), inner, trim_eq_self trimmed,
    stripParensWithin_bare bare]

end Strip

end StructuredText
