import StructuredText.Proofs.Pou.Ordinary
import StructuredText.Proofs.Source.Depth
import StructuredText.Proofs.Validation.CodeLine

/- What passes as an assignment.  On a line that begins with no keyword the first `:=` outside
   parentheses is searched from the line's start; nothing is found if none stands there, or if it
   stands between a plain target and a value with as many opening as closing parentheses. -/
namespace StructuredText

theorem startsFoldedWord_of_nonKeyword {v w : Text} (word : NonKeyword w)
    (listed : v ∈ keywords) {d : Char} (ends : isWord d = false ∧ isWord (fold d) = false)
    (rest : Text) : startsFoldedWord v (w ++ d :: rest) = false := by
  have letters : ∀ v ∈ keywords, ∀ c ∈ v, isWord c = true := of_all_words (by decide)
  cases starts : startsFoldedWord v (w ++ d :: rest) with
  | false => rfl
  | true =>
    have same := eq_of_startsFoldedWord (letters v listed) word.isWord ends starts
    rw [word.map_fold] at same
    exact absurd (same ▸ listed) word.noKeyword

def beginsWithKeyword (t : Text) : Bool := keywords.any (startsFoldedWord · t)

theorem beginsWithKeyword_of_nonKeyword {w : Text} (word : NonKeyword w) {d : Char}
    (ends : isWord d = false ∧ isWord (fold d) = false) (rest : Text) :
    beginsWithKeyword (w ++ d :: rest) = false := by
  rw [beginsWithKeyword, List.any_eq_false]
  intro v listed
  rw [startsFoldedWord_of_nonKeyword word listed ends rest]
  exact Bool.false_ne_true

section NoKeyword
variable {t : Text} (free : beginsWithKeyword t = false)
include free

theorem startsFoldedWord_of_free {v : Text} (listed : v ∈ keywords) :
    startsFoldedWord v t = false := by
  rw [beginsWithKeyword, List.any_eq_false] at free
  exact Bool.not_eq_true _ ▸ free v listed

theorem behindOpening_of_free :
    (inlineOpenings.findSome? fun (opening, closing) => behindOpening? opening closing t) =
      none := by
  have keyword : ∀ p ∈ inlineOpenings, p.1 ∈ keywords := by decide
  rw [List.findSome?_eq_none_iff]
  rintro ⟨opening, closing⟩ mem
  have listed : opening ∈ keywords := keyword _ mem
  dsimp only
  rw [behindOpening?, startsFoldedWord_of_free free listed]
  rfl

theorem statementStart_of_free : statementStart false t = 0 := by
  have noOpening := behindOpening_of_free free
  have noElse : behindElse? t = none := by
    have missing := @startsFoldedWord_of_free t free "ELSE".toList (by decide)
    rw [behindElse?]
    split
    · next starts =>
      obtain ⟨starts, blank⟩ := (Bool.and_eq_true _ _).mp starts
      obtain ⟨c, first, blank⟩ := (Option.any_eq_true _ _).mp blank
      have wordEnd : atWordEnd (t.drop 4) = true := by
        rw [atWordEnd, Option.mem_def.mp first]
        simp [isWord_of_isBlank blank]
      rw [startsFoldedWord, starts] at missing
      exact absurd (missing.symm.trans wordEnd) Bool.false_ne_true
    · rfl
  rw [statementStart, behindControl?, noOpening, noElse]
  rfl

end NoKeyword

theorem standsOutside_assign_iff {t : Text} :
    StandsOutside ":=".toList t ↔ (topLevelFrom ":=".toList 0 t).isSome = true :=
  @standsOutside_iff ':' ['='] (by decide) t

/-- `:=` stands between a plain target and a text that has no other one outside parentheses. -/
def IsSimpleAssignment (t : Text) : Prop :=
  ∃ target value, t = target ++ ":=".toList ++ value ∧ isTarget (trim target) = true ∧
    ¬ StandsOutside ":=".toList value

theorem free_of_isTarget {s : Text} (target : isTarget (trim s) = true) :
    ∀ c ∈ s, c ≠ '(' ∧ c ≠ ')' ∧ c ≠ ':' := by
  obtain ⟨a, b, whole, left, right⟩ := exists_trim s
  obtain ⟨-, named⟩ := (Bool.and_eq_true _ _).mp target
  have signs : ∀ d ∈ "():".toList, isBlank d = false ∧
      (isWord d || d = '[' || d = ']' || d = '.') = false := of_all (by decide)
  have solid {c : Char} (other : isBlank c = true ∨
      (isWord c || c = '[' || c = ']' || c = '.') = true) : c ≠ '(' ∧ c ≠ ')' ∧ c ≠ ':' := by
    have apart : c ∉ "():".toList := by
      intro mem
      obtain ⟨inner, noTarget⟩ := signs c mem
      rcases other with blank | letter
      · exact Bool.noConfusion (inner.symm.trans blank)
      · exact Bool.noConfusion (noTarget.symm.trans letter)
    simpa using apart
  intro c mem
  rw [whole] at mem
  rcases List.mem_append.mp mem with mem | mem
  · rcases List.mem_append.mp mem with mem | mem
    · exact solid (Or.inl (left c mem))
    · exact solid (Or.inr (List.all_eq_true.mp named c mem))
  · exact solid (Or.inl (right c mem))

theorem hasEqualParens_append {s : Text} (free : ∀ c ∈ s, c ≠ '(' ∧ c ≠ ')') (t : Text) :
    hasEqualParens (s ++ t) = hasEqualParens t := by
  have none : s.count '(' = 0 ∧ s.count ')' = 0 :=
    ⟨List.count_eq_zero.mpr fun mem => (free _ mem).1 rfl,
      List.count_eq_zero.mpr fun mem => (free _ mem).2 rfl⟩
  rw [hasEqualParens, hasEqualParens, List.count_append, List.count_append, none.1, none.2,
    Nat.zero_add, Nat.zero_add]

theorem checkAssignment_eq_nil_iff {line : Line} (free : beginsWithKeyword line.text = false) :
    checkAssignment false line = [] ↔ (StandsOutside ":=".toList line.text →
      IsSimpleAssignment line.text ∧ hasEqualParens line.text = true) := by
  have noLoop : startsFoldedWord "FOR".toList line.text = false :=
    startsFoldedWord_of_free free (by decide)
  simp only [checkAssignment, statementStart_of_free free, noLoop, findTopLevel?, List.drop_zero,
    Bool.false_eq_true, if_false, Nat.zero_add, Option.isSome_map]
  rw [standsOutside_assign_iff]
  cases found : topLevelFrom ":=".toList 0 line.text with
  | none => simp
  | some n =>
    obtain ⟨value, here⟩ := prefix_of_topLevelFrom found
    have behind : line.text.drop (n + 2) = value := by
      rw [← List.drop_drop, ← here]
      rfl
    have whole : line.text = line.text.take n ++ ":=".toList ++ value := by
      rw [List.append_assoc, here, List.take_append_drop]
    have equalBehind {target : Text} (chars : ∀ c ∈ target, c ≠ '(' ∧ c ≠ ')' ∧ c ≠ ':') :
        hasEqualParens (target ++ ":=".toList ++ value) = hasEqualParens value := by
      rw [List.append_assoc, hasEqualParens_append fun c mem => ⟨(chars c mem).1, (chars c mem).2.1⟩,
        hasEqualParens_append (of_all (by decide))]
    simp only [Option.map_some, Option.isSome_some, forall_const, behind]
    constructor
    · intro passed
      have only : ¬ StandsOutside ":=".toList value := by
        rw [standsOutside_assign_iff]
        intro second
        rw [if_pos second] at passed
        contradiction
      rw [if_neg (by rwa [← standsOutside_assign_iff])] at passed
      obtain ⟨target, equal⟩ := List.append_eq_nil_iff.mp passed
      have named : isTarget (trim (line.text.take n)) = true := by
        by_contra other
        rw [if_neg other] at target
        contradiction
      have balanced : hasEqualParens value = true := by
        by_contra other
        rw [if_neg other] at equal
        contradiction
      refine ⟨⟨line.text.take n, value, whole, named, only⟩, ?_⟩
      rw [whole, equalBehind (free_of_isTarget named)]
      exact balanced
    · rintro ⟨⟨target, value', split, named, only⟩, equal⟩
      have chars := free_of_isTarget named
      have place : n = target.length := by
        have passed := @topLevelFrom_skip ':' ['='] target chars (":=".toList ++ value')
        have here' : topLevelFrom [':', '='] 0 (":=".toList ++ value') = some 0 := rfl
        rw [← List.append_assoc, ← split, here', Option.map_some, Nat.zero_add] at passed
        exact Option.some.inj (found.symm.trans passed)
      have target_ : line.text.take n = target := by
        rw [split, place, List.append_assoc, List.take_left]
      have value_ : value = value' := by
        rw [target_] at whole
        exact List.append_cancel_left (whole.symm.trans split)
      have second : ¬ (topLevelFrom ":=".toList 0 value).isSome = true := by
        rwa [← standsOutside_assign_iff, value_]
      rw [whole, equalBehind (free_of_isTarget (by rwa [target_]))] at equal
      rw [if_neg second, target_, if_pos named, if_pos equal]
      rfl

theorem isTrimmed_of_isTarget {target : Text} (named : isTarget target = true) :
    IsTrimmed target := by
  obtain ⟨filled, chars⟩ := (Bool.and_eq_true _ _).mp named
  refine isTrimmed_of_solid (by simpa using filled) fun c mem => ?_
  have char := List.all_eq_true.mp chars c mem
  simp only [Bool.or_eq_true, decide_eq_true_eq] at char
  rcases char with ((word | rfl) | rfl) | rfl
  · exact isBlank_of_isWord word
  · decide
  · decide
  · decide

/-- A plain target, a spaced `:=` and a value without a colon. -/
theorem checkAssignment_spaced {line : Line} (free : beginsWithKeyword line.text = false)
    {target value : Text} (text : line.text = target ++ " := ".toList ++ value)
    (named : isTarget target = true) (noColon : ':' ∉ value)
    (equal : hasEqualParens value = true) : checkAssignment false line = [] := by
  have cut : trim (target ++ [' ']) = target := by
    have cut := trim_surrounded (a := []) (b := [' ']) (isTrimmed_of_isTarget named) (of_all rfl)
      (of_all rfl)
    rwa [List.nil_append] at cut
  rw [checkAssignment_eq_nil_iff free]
  intro _
  constructor
  · refine ⟨target ++ [' '], ' ' :: value, by simp [text], by rw [cut]; exact named, ?_⟩
    rintro ⟨before, inside, -⟩
    have colon : ':' ∈ ' ' :: value := inside.subset (List.mem_append_right _ List.mem_cons_self)
    rcases List.mem_cons.mp colon with blank | mem
    · contradiction
    · exact noColon mem
  · have outside := free_of_isTarget (s := target ++ [' ']) (by rw [cut]; exact named)
    have shape : line.text = (target ++ [' ']) ++ (":= ".toList ++ value) := by
      rw [text]
      simp
    rw [shape, hasEqualParens_append fun c mem => ⟨(outside c mem).1, (outside c mem).2.1⟩,
      hasEqualParens_append (of_all (by decide))]
    exact equal

end StructuredText
