import StructuredText.Proofs.Expression.Parentheses

/- Texts that can stand beside an operator: whatever stands around such a text is not taken for a
   part of it, nor a part of it for something around it. -/
namespace StructuredText

/-- Not empty and not the word NOT, with parentheses that match, and outside them neither a
    connective nor a comparison. -/
def isOperandText (t : Text) : Bool :=
  !t.isEmpty && t ≠ "NOT".toList && Balanced t &&
    Connective.all.all (fun op => (cutAtTopWord? op.symbol none 0 t).isNone) &&
    Comparison.all.all fun op => (topLevelFrom op.symbol 0 t).isNone

structure IsUnbroken (previous : Option Char) (t : Text) : Prop where
  balanced : Balanced t
  unchained : ∀ op : Connective, cutAtTopWord? op.symbol previous 0 t = none
  incomparable : ∀ op : Comparison, topLevelFrom op.symbol 0 t = none

theorem isUnbroken_of_isOperandText {t : Text} (operand : isOperandText t = true) :
    t ≠ [] ∧ t ≠ "NOT".toList ∧ IsUnbroken none t := by
  simp only [isOperandText, Bool.and_eq_true, Bool.not_eq_true', List.isEmpty_eq_false_iff,
    decide_eq_true_eq, List.all_eq_true, Option.isNone_iff_eq_none] at operand
  obtain ⟨⟨⟨⟨nonempty, other⟩, balanced⟩, unchained⟩, incomparable⟩ := operand
  exact ⟨nonempty, other, balanced, fun op => unchained op (by cases op <;> decide),
    fun op => incomparable op op.mem_all⟩

namespace IsUnbroken
variable {previous : Option Char} {t : Text}

theorem behind_group {g : Text} (inner : Balanced g) (later : Balanced t)
    (unbroken : IsUnbroken previous (parenthesized g ++ t)) : IsUnbroken (some ')') t := by
  refine ⟨later, fun op => ?_, fun op => ?_⟩
  · have none := unbroken.unchained op
    rwa [cutAtTopWord_group inner, Option.map_eq_none_iff] at none
  · have none := unbroken.incomparable op
    rwa [topLevelFrom_group inner, Option.map_eq_none_iff] at none

theorem isComparisonChar_head {c : Char} (opens : c ≠ '(') (closes : c ≠ ')')
    (unbroken : IsUnbroken previous (c :: t)) : isComparisonChar c = false := by
  have miss {op : Comparison} (sign : op.symbol = [c]) : False := by
    have none := unbroken.incomparable op
    rw [topLevelFrom, if_neg opens, if_neg closes, if_pos ⟨rfl, by simp [sign]⟩] at none
    contradiction
  cases found : isComparisonChar c with
  | false => rfl
  | true =>
    simp only [isComparisonChar, Bool.or_eq_true, decide_eq_true_eq] at found
    rcases found with (rfl | rfl) | rfl
    · exact (@miss .lt rfl).elim
    · exact (@miss .gt rfl).elim
    · exact (@miss .eq rfl).elim

theorem behind_mark {c : Char} (nonword : isWord c = false) (opens : c ≠ '(') (closes : c ≠ ')')
    (later : Balanced t) (unbroken : IsUnbroken previous (c :: t)) : IsUnbroken (some c) t := by
  refine ⟨later, fun op => ?_, fun op => ?_⟩
  · have none := unbroken.unchained op
    rwa [cutAtTopWord_pass _ _ _ _ opens closes
      (by rw [startsWithWord_mark nonword, Bool.and_false]), Option.map_eq_none_iff] at none
  · have none := unbroken.incomparable op
    rwa [topLevelFrom_pass_char opens closes (unbroken.isComparisonChar_head opens closes),
      Option.map_eq_none_iff] at none

section Word
variable {w : Text} (nonempty : w ≠ []) (letters : ∀ c ∈ w, isWord c = true)
  (starts : atWordStart previous = true) (ends : atWordEnd t = true)
  (unbroken : IsUnbroken previous (w ++ t))
include nonempty letters starts ends unbroken

theorem ne_symbol (op : Connective) : w ≠ op.symbol := by
  rintro rfl
  have found : startsWithWord op.symbol (op.symbol ++ t) = true := by
    rw [startsWithWord, List.isPrefixOf_iff_prefix.mpr (List.prefix_append _ _), List.drop_left,
      ends]
    rfl
  have none := unbroken.unchained op
  obtain ⟨c, s, eq, letter⟩ := op.symbol_cons
  obtain ⟨opens, closes⟩ := paren_of_isWord letter
  rw [eq, List.cons_append] at found none
  rw [cutAtTopWord?, if_neg opens, if_neg closes, if_pos (by rw [found, starts]; rfl)] at none
  contradiction

theorem behind_word : IsUnbroken (lastOf previous w) t := by
  refine ⟨?_, fun op => ?_, fun op => ?_⟩
  · have same := (sameParens_of_free fun c mem => paren_of_isWord (letters c mem)).symm.append
      (.refl t)
    exact same.balanced unbroken.balanced
  · have none := unbroken.unchained op
    rwa [cutAtTopWord_word (isWord_of_mem_symbol op) nonempty letters
      (unbroken.ne_symbol nonempty letters starts ends op) ends, Option.map_eq_none_iff] at none
  · have none := unbroken.incomparable op
    rwa [topLevelFrom_letters letters, Option.map_eq_none_iff] at none

end Word

theorem tighter (unbroken : IsUnbroken previous t)
    (apart : atWordStart previous = true ∨ atWordEnd t = true) (k : Nat) : Tighter k t := by
  induction size : t.length using Nat.strongRecOn generalizing t previous with
  | ind n ih =>
    cases unbroken.balanced with
    | nil => exact .nil
    | @group g rest inner later =>
      subst size
      have shorter : rest.length < (parenthesized g ++ rest).length := by
        rw [List.length_append, length_parenthesized]
        omega
      exact .group inner (ih rest.length shorter (unbroken.behind_group inner later)
        (Or.inl (by decide)) rfl)
    | @char c rest opens closes later =>
      subst size
      cases word : isWord c with
      | false =>
        have further := ih rest.length (Nat.lt_succ_self _)
          (unbroken.behind_mark word opens closes later) (Or.inl (by simp [atWordStart, word])) rfl
        exact .mark word opens closes
          (fun _ => unbroken.isComparisonChar_head opens closes) further
      | true =>
        have starts : atWordStart previous = true := by
          rcases apart with starts | ends
          · exact starts
          · simp [atWordEnd, word] at ends
        have whole : c :: rest = (c :: rest).takeWhile isWord ++ (c :: rest).dropWhile isWord :=
          List.takeWhile_append_dropWhile.symm
        have nonempty : (c :: rest).takeWhile isWord ≠ [] := by simp [word]
        have letters : ∀ d ∈ (c :: rest).takeWhile isWord, isWord d = true :=
          fun d mem => List.mem_takeWhile_imp mem
        have ends : atWordEnd ((c :: rest).dropWhile isWord) = true := by
          have stops := List.head?_dropWhile_not isWord (c :: rest)
          rw [atWordEnd]
          cases head : ((c :: rest).dropWhile isWord).head? with
          | none => rfl
          | some d => simpa [head] using stops
        generalize (c :: rest).takeWhile isWord = w at whole nonempty letters
        generalize (c :: rest).dropWhile isWord = behind at whole ends
        rw [whole] at unbroken ⊢
        have shorter : behind.length < (c :: rest).length := by
          have filled := List.length_pos_iff.mpr nonempty
          rw [whole, List.length_append]
          omega
        exact .word nonempty letters
          (fun op _ => unbroken.ne_symbol nonempty letters starts ends op) ends
          (ih behind.length shorter (unbroken.behind_word nonempty letters starts ends)
            (Or.inr ends) rfl)

end IsUnbroken

end StructuredText
