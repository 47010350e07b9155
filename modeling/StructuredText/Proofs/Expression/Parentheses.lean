import StructuredText.Proofs.Expression.Shape

/- What taking blanks and enclosing parentheses off a text leaves as it was: every other character,
   and how deep the parentheses stand. -/
namespace StructuredText

/-- The depth behind a text that begins at some depth; there is none if it goes below zero. -/
def depthBehind? : (depth : Nat) → Text → Option Nat
  | depth, [] => some depth
  | depth, c :: t =>
    if c = '(' then depthBehind? (depth + 1) t
    else if c = ')' then if depth = 0 then none else depthBehind? (depth - 1) t
    else depthBehind? depth t

theorem depthBehind?_append (depth : Nat) (s t : Text) :
    depthBehind? depth (s ++ t) = (depthBehind? depth s).bind (depthBehind? · t) := by
  induction s generalizing depth with
  | nil => rfl
  | cons c s ih =>
    rw [List.cons_append, depthBehind?, depthBehind?]
    split
    · exact ih _
    · split
      · split
        · rfl
        · exact ih _
      · exact ih _

theorem depthBehind?_open (depth : Nat) (t : Text) :
    depthBehind? depth ('(' :: t) = depthBehind? (depth + 1) t := by
  rw [depthBehind?, if_pos rfl]

theorem depthBehind?_close (depth : Nat) (t : Text) :
    depthBehind? (depth + 1) (')' :: t) = depthBehind? depth t := by
  rw [depthBehind?, if_neg (by decide), if_pos rfl, if_neg (Nat.succ_ne_zero depth),
    Nat.add_sub_cancel]

theorem depthBehind?_pass {c : Char} (opens : c ≠ '(') (closes : c ≠ ')') (depth : Nat)
    (t : Text) : depthBehind? depth (c :: t) = depthBehind? depth t := by
  rw [depthBehind?, if_neg opens, if_neg closes]

theorem depthBehind?_parenthesized (depth : Nat) (g t : Text) :
    depthBehind? depth (parenthesized g ++ t) =
      (depthBehind? (depth + 1) g).bind (depthBehind? · (')' :: t)) := by
  rw [parenthesized_append, depthBehind?_open, depthBehind?_append]

def SameParens (s t : Text) : Prop := ∀ depth, depthBehind? depth s = depthBehind? depth t

namespace SameParens
variable {s t u v : Text}

theorem refl (t : Text) : SameParens t t := fun _ => rfl

theorem symm (same : SameParens s t) : SameParens t s := fun depth => (same depth).symm

theorem trans (first : SameParens s t) (second : SameParens t u) : SameParens s u :=
  fun depth => (first depth).trans (second depth)

theorem append (first : SameParens s t) (second : SameParens u v) :
    SameParens (s ++ u) (t ++ v) := by
  intro depth
  rw [depthBehind?_append, depthBehind?_append, first]
  exact congrArg _ (funext second)

end SameParens

theorem sameParens_of_balanced {t : Text} (balanced : Balanced t) : SameParens t [] := by
  intro depth
  induction balanced generalizing depth with
  | nil => rfl
  | char opens closes _ ih => rw [depthBehind?_pass opens closes, ih]
  | group _ _ inner ih =>
    rw [depthBehind?_parenthesized, inner]
    exact (depthBehind?_close depth _).trans (ih depth)

theorem sameParens_of_free {t : Text} (free : ∀ c ∈ t, c ≠ '(' ∧ c ≠ ')') : SameParens t [] :=
  sameParens_of_balanced (balanced_of_free free)

theorem exists_close {depth lower : Nat} {t : Text} (below : lower ≤ depth)
    (found : depthBehind? (depth + 1) t = some lower) :
    ∃ g rest, t = g ++ ')' :: rest ∧ Balanced g ∧ depthBehind? depth rest = some lower := by
  induction size : t.length using Nat.strongRecOn generalizing t depth with
  | ind n ih =>
    cases t with
    | nil =>
      obtain rfl := Option.some.inj found
      omega
    | cons c t =>
      subst size
      by_cases opens : c = '('
      · subst opens
        rw [depthBehind?_open] at found
        obtain ⟨g, rest, rfl, inner, found⟩ :=
          ih t.length (Nat.lt_succ_self _) (Nat.le_succ_of_le below) found rfl
        have shorter : rest.length < ('(' :: (g ++ ')' :: rest)).length := by
          simp only [List.length_cons, List.length_append]
          omega
        obtain ⟨h, rest, rfl, behind, found⟩ := ih rest.length shorter below found rfl
        refine ⟨parenthesized g ++ h, rest, ?_, .group inner behind, found⟩
        rw [List.append_assoc, parenthesized_append]
      · by_cases closes : c = ')'
        · subst closes
          rw [depthBehind?_close] at found
          exact ⟨[], t, rfl, .nil, found⟩
        · rw [depthBehind?_pass opens closes] at found
          obtain ⟨g, rest, rfl, inner, found⟩ := ih t.length (Nat.lt_succ_self _) below found rfl
          exact ⟨c :: g, rest, rfl, .char opens closes inner, found⟩

theorem balanced_iff (t : Text) : Balanced t ↔ depthBehind? 0 t = some 0 := by
  constructor
  · exact fun balanced => sameParens_of_balanced balanced 0
  · intro found
    induction size : t.length using Nat.strongRecOn generalizing t with
    | ind n ih =>
      cases t with
      | nil => exact .nil
      | cons c t =>
        subst size
        by_cases opens : c = '('
        · subst opens
          rw [depthBehind?_open] at found
          obtain ⟨g, rest, rfl, inner, found⟩ := exists_close (Nat.le_refl 0) found
          have shorter : rest.length < ('(' :: (g ++ ')' :: rest)).length := by
            simp only [List.length_cons, List.length_append]
            omega
          rw [← parenthesized_append]
          exact .group inner (ih rest.length shorter rest found rfl)
        · by_cases closes : c = ')'
          · subst closes
            contradiction
          · rw [depthBehind?_pass opens closes] at found
            exact .char opens closes (ih t.length (Nat.lt_succ_self _) t found rfl)

instance (t : Text) : Decidable (Balanced t) := decidable_of_iff _ (balanced_iff t).symm

theorem SameParens.balanced {s t : Text} (same : SameParens s t) (balanced : Balanced t) :
    Balanced s := by
  rw [balanced_iff] at balanced ⊢
  rw [same, balanced]

theorem depthBehind?_take {depth n : Nat} {t : Text}
    (found : closingFrom (depth + 1 : Nat) t = some n) :
    depthBehind? depth (t.take n) = some 0 ∧ (t.drop n).head? = some ')' := by
  induction t generalizing depth n with
  | nil => contradiction
  | cons c t ih =>
    have next {depth m : Nat} (inner : closingFrom (depth + 1 : Nat) t = some m) :
        depthBehind? depth (t.take m) = some 0 ∧ (t.drop m).head? = some ')' := ih inner
    rw [closingFrom] at found
    split at found
    · next opens =>
      obtain ⟨m, inner, rfl⟩ := Option.map_eq_some_iff.mp found
      subst opens
      rw [List.take_succ_cons, depthBehind?_open]
      exact next inner
    · next opens =>
      split at found
      · next closes =>
        subst closes
        split at found
        · next last =>
          obtain rfl : depth = 0 := by omega
          obtain rfl := Option.some.inj found
          exact ⟨rfl, rfl⟩
        · next more =>
          obtain ⟨m, inner, rfl⟩ := Option.map_eq_some_iff.mp found
          obtain ⟨outer, rfl⟩ : ∃ outer, depth = outer + 1 := ⟨depth - 1, by omega⟩
          have less : ((outer + 1 + 1 : Nat) : Int) - 1 = (outer + 1 : Nat) := by omega
          rw [less] at inner
          rw [List.take_succ_cons, depthBehind?_close]
          exact next inner
      · next closes =>
        obtain ⟨m, inner, rfl⟩ := Option.map_eq_some_iff.mp found
        rw [List.take_succ_cons, depthBehind?_pass opens closes]
        exact next inner

theorem exists_of_isEnclosed {t : Text} (enclosed : isEnclosed t = true) :
    ∃ g, t = parenthesized g ∧ Balanced g := by
  simp only [isEnclosed, Bool.and_eq_true, decide_eq_true_eq, matchingParen?, List.drop_zero]
    at enclosed
  obtain ⟨head, found⟩ := enclosed
  obtain ⟨t, rfl⟩ := List.head?_eq_some_iff.mp head
  rw [closingFrom_open] at found
  obtain ⟨m, step, place⟩ := Option.map_eq_some_iff.mp found
  obtain ⟨n, inner, rfl⟩ := Option.map_eq_some_iff.mp step
  have last : n + 1 = t.length := by
    rw [List.length_cons] at place
    omega
  obtain ⟨closed, behind⟩ := @depthBehind?_take 0 n t inner
  obtain ⟨rest, drop⟩ := List.head?_eq_some_iff.mp behind
  have alone : rest = [] := by
    have size := congrArg List.length drop
    rw [List.length_drop, List.length_cons] at size
    exact List.length_eq_zero_iff.mp (by omega)
  refine ⟨t.take n, ?_, (balanced_iff _).mpr closed⟩
  rw [parenthesized, ← alone, ← drop, List.take_append_drop]

theorem paren_of_isBlank {c : Char} (blank : isBlank c = true) : c ≠ '(' ∧ c ≠ ')' := by
  constructor <;> rintro rfl <;> contradiction

/-- What is left of a text, in which nothing but blanks and parentheses around it went. -/
structure IsCore (s t : Text) : Prop where
  trimmed : s ≠ [] → IsTrimmed s
  inside : s <:+: t
  same : SameParens s t

theorem IsCore.trans {s t u : Text} (first : IsCore s t) (second : IsCore t u) : IsCore s u :=
  ⟨first.trimmed, first.inside.trans second.inside, first.same.trans second.same⟩

theorem isCore_trim (t : Text) : IsCore (trim t) t := by
  obtain ⟨a, b, whole, left, right⟩ := exists_trim t
  have free {u : Text} (blank : ∀ c ∈ u, isBlank c = true) : SameParens [] u :=
    (sameParens_of_free fun c mem => paren_of_isBlank (blank c mem)).symm
  refine ⟨isTrimmed_trim, ⟨a, b, whole.symm⟩, ?_⟩
  have same := ((free left).append (.refl (trim t))).append (free right)
  rwa [List.nil_append, List.append_nil, ← whole] at same

theorem isCore_stripParensWithin (pairs : Nat) {t : Text} (trimmed : t ≠ [] → IsTrimmed t) :
    IsCore (stripParensWithin pairs t) t := by
  induction pairs generalizing t with
  | zero => exact ⟨trimmed, List.infix_refl t, .refl t⟩
  | succ pairs ih =>
    rw [stripParensWithin]
    split
    · next enclosed =>
      obtain ⟨g, rfl, balanced⟩ := exists_of_isEnclosed enclosed
      have inner : ((parenthesized g).drop 1).dropLast = g := by simp [parenthesized]
      have outer : SameParens g (parenthesized g) :=
        (sameParens_of_balanced balanced).trans
          (sameParens_of_balanced (balanced_parenthesized balanced)).symm
      have core := (ih isTrimmed_trim).trans (isCore_trim g)
      rw [inner]
      exact ⟨core.trimmed, core.inside.trans ⟨['('], [')'], rfl⟩, core.same.trans outer⟩
    · exact ⟨trimmed, List.infix_refl t, .refl t⟩

theorem isCore_stripParens (t : Text) : IsCore (stripParens t) t :=
  (isCore_stripParensWithin _ isTrimmed_trim).trans (isCore_trim t)

theorem isEnclosed_stripParensWithin {pairs : Nat} {t : Text} (enough : t.length ≤ pairs) :
    isEnclosed (stripParensWithin pairs t) = false := by
  induction pairs generalizing t with
  | zero =>
    obtain rfl := List.length_eq_zero_iff.mp (Nat.le_zero.mp enough)
    rfl
  | succ pairs ih =>
    rw [stripParensWithin]
    split
    · next enclosed =>
      apply ih
      have shorter := (isCore_trim (t.drop 1).dropLast).inside.length_le
      rw [List.length_dropLast, List.length_drop] at shorter
      omega
    · next bare => exact Bool.eq_false_iff.mpr bare

theorem isEnclosed_stripParens (t : Text) : isEnclosed (stripParens t) = false :=
  isEnclosed_stripParensWithin (isCore_trim t).inside.length_le

inductive Joins : List Text → Text → Prop
  | nil {t : Text} (free : ∀ c ∈ t, c ≠ '(' ∧ c ≠ ')') : Joins [] t
  | cons {a part t : Text} {rest : List Text} (free : ∀ c ∈ a, c ≠ '(' ∧ c ≠ ')')
    (later : Joins rest t) : Joins (part :: rest) (a ++ part ++ t)

namespace Joins
variable {parts : List Text} {t : Text}

theorem balanced (joins : Joins parts t) (each : ∀ part ∈ parts, Balanced part) : Balanced t := by
  induction joins with
  | nil free => exact balanced_of_free free
  | cons free later ih =>
    obtain ⟨first, more⟩ := List.forall_mem_cons.mp each
    exact ((balanced_of_free free).append first).append (ih more)

theorem mem (joins : Joins parts t) {part : Text} (inside : part ∈ parts) {c : Char}
    (mem : c ∈ part) : c ∈ t := by
  induction joins with
  | nil free => contradiction
  | cons free later ih =>
    rcases List.mem_cons.mp inside with rfl | inside
    · exact List.mem_append_left _ (List.mem_append_right _ mem)
    · exact List.mem_append_right _ (ih inside)

theorem behind {a : Text} (free : ∀ c ∈ a, c ≠ '(' ∧ c ≠ ')') (joins : Joins parts t) :
    Joins parts (a ++ t) := by
  cases joins with
  | nil free' => exact .nil (List.forall_mem_append.mpr ⟨free, free'⟩)
  | @cons b part u rest free' later =>
    rw [← List.append_assoc, ← List.append_assoc]
    exact .cons (List.forall_mem_append.mpr ⟨free, free'⟩) later

end Joins

end StructuredText
