import Mathlib.Data.List.TakeDrop
import StructuredText.Proofs.Text.Boundary
import StructuredText.Source.Nesting

/- Texts with the same signs at the same places.  A search that looks for these signs alone takes the
   same course through both. -/
namespace StructuredText

/-- At each place either both texts go on with a sign or neither does. -/
inductive SameSigns (signs : List Text) : Text → Text → Prop
  | nil : SameSigns signs [] []
  | cons {c d : Char} {s t : Text}
    (here : ∀ sign ∈ signs, sign.isPrefixOf (c :: s) = sign.isPrefixOf (d :: t))
    (later : SameSigns signs s t) : SameSigns signs (c :: s) (d :: t)

instance decidableSameSigns (signs : List Text) : ∀ s t, Decidable (SameSigns signs s t)
  | [], [] => isTrue .nil
  | [], _ :: _ => isFalse nofun
  | _ :: _, [] => isFalse nofun
  | c :: s, d :: t =>
    have := decidableSameSigns signs s t
    decidable_of_iff
      ((∀ sign ∈ signs, sign.isPrefixOf (c :: s) = sign.isPrefixOf (d :: t)) ∧ SameSigns signs s t)
      ⟨fun both => .cons both.1 both.2, fun | .cons here later => ⟨here, later⟩⟩

def parenSigns : List Text := ["(".toList, ")".toList]

theorem isPrefixOf_single {x c : Char} {t : Text} : [x].isPrefixOf (c :: t) = true ↔ c = x := by
  rw [List.isPrefixOf_cons_cons, List.isPrefixOf_nil_left, Bool.and_true, beq_iff_eq, eq_comm]

namespace SameSigns
variable {signs : List Text} {s t : Text}

theorem refl (signs : List Text) (t : Text) : SameSigns signs t t := by
  induction t with
  | nil => exact .nil
  | cons c t ih => exact .cons (fun _ _ => rfl) ih

theorem length_eq (same : SameSigns signs s t) : s.length = t.length := by
  induction same with
  | nil => rfl
  | cons _ _ ih => rw [List.length_cons, List.length_cons, ih]

theorem mono {fewer : List Text} (among : fewer ⊆ signs) (same : SameSigns signs s t) :
    SameSigns fewer s t := by
  induction same with
  | nil => exact .nil
  | cons here _ ih => exact .cons (fun sign mem => here sign (among mem)) ih

theorem union {others : List Text} (same : SameSigns signs s t) (more : SameSigns others s t) :
    SameSigns (signs ++ others) s t := by
  induction same with
  | nil => exact .nil
  | cons here _ ih =>
    cases more with
    | cons here' later => exact .cons (List.forall_mem_append.mpr ⟨here, here'⟩) (ih later)

theorem drop (same : SameSigns signs s t) (n : Nat) : SameSigns signs (s.drop n) (t.drop n) := by
  induction same generalizing n with
  | nil => simpa using SameSigns.nil
  | cons here later ih =>
    cases n with
    | zero => exact .cons here later
    | succ n => exact ih n

theorem take (same : SameSigns signs s t) (n : Nat) : SameSigns signs (s.take n) (t.take n) := by
  induction same generalizing n with
  | nil => simpa using SameSigns.nil
  | @cons c d s t here later ih =>
    cases n with
    | zero => exact .nil
    | succ n =>
      refine .cons (fun sign mem => ?_) (ih n)
      have whole := here sign mem
      rw [Bool.eq_iff_iff, List.isPrefixOf_iff_prefix, List.isPrefixOf_iff_prefix] at whole ⊢
      rw [← List.take_succ_cons, ← List.take_succ_cons, List.prefix_take_iff, List.prefix_take_iff,
        whole]

/-- No sign reaches over a character that belongs to none. -/
theorem append {mark : Char} (free : ∀ sign ∈ signs, mark ∉ sign) {s' t' : Text}
    (first : SameSigns signs s t) (second : SameSigns signs s' t') :
    SameSigns signs (s ++ mark :: s') (t ++ mark :: t') := by
  induction first with
  | nil =>
    refine .cons (fun sign mem => ?_) second
    exact (isPrefixOf_append (free sign mem) [] s').trans
      (isPrefixOf_append (free sign mem) [] t').symm
  | @cons c d s t here later ih =>
    refine .cons (fun sign mem => ?_) ih
    calc sign.isPrefixOf (c :: s ++ mark :: s')
        = sign.isPrefixOf (c :: s) := isPrefixOf_append (free sign mem) ..
      _ = sign.isPrefixOf (d :: t) := here sign mem
      _ = sign.isPrefixOf (d :: t ++ mark :: t') := (isPrefixOf_append (free sign mem) ..).symm

theorem withFree {x : Char} (same : SameSigns signs s t) (free : x ∉ s) (free' : x ∉ t) :
    SameSigns ([x] :: signs) s t := by
  induction same with
  | nil => exact .nil
  | @cons c d s t here later ih =>
    rw [List.mem_cons, not_or] at free free'
    refine .cons (List.forall_mem_cons.mpr ⟨?_, here⟩) (ih free.2 free'.2)
    rw [Bool.eq_iff_iff, isPrefixOf_single, isPrefixOf_single]
    exact iff_of_false (Ne.symm free.1) (Ne.symm free'.1)

theorem head_iff {x c d : Char} (mem : [x] ∈ signs) (same : SameSigns signs (c :: s) (d :: t)) :
    c = x ↔ d = x := by
  cases same with
  | cons here _ =>
    rw [← isPrefixOf_single (t := s), ← isPrefixOf_single (t := t), here _ mem]

theorem count_eq {x : Char} (mem : [x] ∈ signs) (same : SameSigns signs s t) :
    s.count x = t.count x := by
  induction same with
  | nil => rfl
  | cons here later ih =>
    have first := (SameSigns.cons here later).head_iff mem
    rw [List.count_cons, List.count_cons, ih]
    simp only [beq_iff_eq, first]

theorem containsText_eq {sign : Text} (mem : sign ∈ signs) (same : SameSigns signs s t) :
    containsText sign s = containsText sign t := by
  have found : findText? sign s = findText? sign t := by
    induction same with
    | nil => rfl
    | cons here _ ih => rw [findText?, findText?, here sign mem, ih]
  rw [containsText, containsText, found]

end SameSigns

theorem hasEqualParens_eq {s t : Text} (same : SameSigns parenSigns s t) :
    hasEqualParens s = hasEqualParens t := by
  rw [hasEqualParens, hasEqualParens, same.count_eq (by decide), same.count_eq (by decide)]

theorem topLevelFrom_eq {symbol s t : Text} (same : SameSigns (symbol :: parenSigns) s t)
    (depth : Int) : topLevelFrom symbol depth s = topLevelFrom symbol depth t := by
  induction same generalizing depth with
  | nil => rfl
  | @cons c d s t here later ih =>
    have opens : c = '(' ↔ d = '(' := (SameSigns.cons here later).head_iff (by simp [parenSigns])
    have closes : c = ')' ↔ d = ')' := (SameSigns.cons here later).head_iff (by simp [parenSigns])
    simp only [topLevelFrom, opens, closes, here symbol List.mem_cons_self, ih]

theorem findTopLevel?_eq {symbol s t : Text} (same : SameSigns (symbol :: parenSigns) s t)
    (start : Nat) : findTopLevel? symbol s start = findTopLevel? symbol t start := by
  rw [findTopLevel?, findTopLevel?, topLevelFrom_eq (same.drop start)]

theorem closingFrom_eq {s t : Text} (same : SameSigns parenSigns s t) (depth : Int) :
    closingFrom depth s = closingFrom depth t := by
  induction same generalizing depth with
  | nil => rfl
  | @cons c d s t here later ih =>
    have opens : c = '(' ↔ d = '(' := (SameSigns.cons here later).head_iff (by decide)
    have closes : c = ')' ↔ d = ')' := (SameSigns.cons here later).head_iff (by decide)
    simp only [closingFrom, opens, closes, ih]

theorem matchingParen?_eq {s t : Text} (same : SameSigns parenSigns s t) (start : Nat) :
    matchingParen? s start = matchingParen? t start := by
  rw [matchingParen?, matchingParen?, closingFrom_eq (same.drop start)]

end StructuredText
