import StructuredText.Proofs.Expression.Nesting
import StructuredText.Proofs.Expression.Plain

/- Which operators stand outside all parentheses of a text.  The text of an expression at a place
   shows only such as bind tighter than the place asks, so a search for a looser one passes over
   it. -/
namespace StructuredText

def isComparisonChar (c : Char) : Bool := c = '<' || c = '>' || c = '='

/-- Outside parentheses no connective of tightness `k` or less stands in the text as a word, and
    no comparison if those have no more than `k` either. -/
inductive Tighter (k : Nat) : Text → Prop
  | nil : Tighter k []
  | word {w t : Text} (nonempty : w ≠ []) (letters : ∀ c ∈ w, isWord c = true)
    (free : ∀ op : Connective, op.tightness ≤ k → w ≠ op.symbol) (ends : atWordEnd t = true)
    (rest : Tighter k t) : Tighter k (w ++ t)
  | mark {c : Char} {t : Text} (nonword : isWord c = false) (opens : c ≠ '(') (closes : c ≠ ')')
    (free : 3 ≤ k → isComparisonChar c = false) (rest : Tighter k t) : Tighter k (c :: t)
  | group {g t : Text} (inner : Balanced g) (rest : Tighter k t) :
    Tighter k (parenthesized g ++ t)

theorem paren_of_isWord {c : Char} (word : isWord c = true) : c ≠ '(' ∧ c ≠ ')' := by
  constructor
  · rintro rfl
    revert word
    decide
  · rintro rfl
    revert word
    decide

theorem Tighter.balanced {k : Nat} {t : Text} (tighter : Tighter k t) : Balanced t := by
  induction tighter with
  | nil => exact Balanced.nil
  | word nonempty letters free ends rest ih =>
    exact (balanced_of_free fun c mem => paren_of_isWord (letters c mem)).append ih
  | mark nonword opens closes free rest ih => exact Balanced.char opens closes ih
  | group inner rest ih => exact Balanced.group inner ih

theorem atWordEnd_append {s t : Text} (left : atWordEnd s = true) (right : atWordEnd t = true) :
    atWordEnd (s ++ t) = true := by
  cases s with
  | nil => exact right
  | cons c s => exact left

theorem Tighter.append {k : Nat} {s t : Text} (left : Tighter k s) (ends : atWordEnd t = true)
    (right : Tighter k t) : Tighter k (s ++ t) := by
  induction left with
  | nil => exact right
  | word nonempty letters free here rest ih =>
    rw [List.append_assoc]
    exact Tighter.word nonempty letters free (atWordEnd_append here ends) ih
  | mark nonword opens closes free rest ih => exact Tighter.mark nonword opens closes free ih
  | group inner rest ih =>
    rw [List.append_assoc]
    exact Tighter.group inner ih

theorem tighter_parenthesized (k : Nat) {g : Text} (inner : Balanced g) :
    Tighter k (parenthesized g) := by
  simpa using Tighter.group (k := k) inner Tighter.nil

theorem tighter_word {k : Nat} {w : Text} (nonempty : w ≠ []) (letters : ∀ c ∈ w, isWord c = true)
    (free : ∀ op : Connective, op.tightness ≤ k → w ≠ op.symbol) : Tighter k w := by
  simpa using Tighter.word nonempty letters free rfl Tighter.nil

theorem cutAtTopWord_letters (symbol : Text) {previous : Char} (before : isWord previous = true)
    {w : Text} (letters : ∀ c ∈ w, isWord c = true) (rest : Text) :
    cutAtTopWord? symbol (some previous) 0 (w ++ rest) =
      (cutAtTopWord? symbol (lastOf (some previous) w) 0 rest).map (prepend w) := by
  induction w generalizing previous with
  | nil => exact (map_prepend_nil _).symm
  | cons c w ih =>
    obtain ⟨opens, closes⟩ := paren_of_isWord (letters c (by simp))
    have inside : atWordStart (some previous) = false := by simp [atWordStart, before]
    rw [List.cons_append,
      cutAtTopWord_pass _ _ _ _ opens closes (by rw [inside, Bool.and_false]; rfl),
      ih (letters c (by simp)) (fun d mem => letters d (by simp [mem]))]
    exact map_prepend_prepend [c] w _

theorem startsWithWord_eq_false {symbol w rest : Text} (symbols : ∀ c ∈ symbol, isWord c = true)
    (letters : ∀ c ∈ w, isWord c = true) (other : w ≠ symbol) (ends : atWordEnd rest = true) :
    startsWithWord symbol (w ++ rest) = false := by
  cases found : startsWithWord symbol (w ++ rest) with
  | false => rfl
  | true =>
    rw [startsWithWord, Bool.and_eq_true] at found
    obtain ⟨t, eq⟩ := List.isPrefixOf_iff_prefix.mp found.1
    have stops : atWordEnd t = true := by simpa [← eq] using found.2
    have same : symbol = w := by
      rw [← takeWhile_word symbols stops, eq, takeWhile_word letters ends]
    exact absurd same.symm other

theorem cutAtTopWord_word {symbol w rest : Text} (symbols : ∀ c ∈ symbol, isWord c = true)
    (nonempty : w ≠ []) (letters : ∀ c ∈ w, isWord c = true) (other : w ≠ symbol)
    (ends : atWordEnd rest = true) (previous : Option Char) :
    cutAtTopWord? symbol previous 0 (w ++ rest) =
      (cutAtTopWord? symbol (lastOf previous w) 0 rest).map (prepend w) := by
  have miss := startsWithWord_eq_false symbols letters other ends
  cases w with
  | nil => contradiction
  | cons c w =>
    obtain ⟨opens, closes⟩ := paren_of_isWord (letters c (by simp))
    rw [List.cons_append] at miss ⊢
    rw [cutAtTopWord_pass _ _ _ _ opens closes (by rw [miss, Bool.and_false]),
      cutAtTopWord_letters symbol (letters c (by simp)) (fun d mem => letters d (by simp [mem]))]
    exact map_prepend_prepend [c] w _

theorem Connective.tightness_lt (op : Connective) : op.tightness < 3 := by
  cases op <;> decide

theorem Connective.symbol_cons (op : Connective) :
    ∃ c t, op.symbol = c :: t ∧ isWord c = true := by
  cases op
  · exact ⟨'A', _, rfl, by decide⟩
  · exact ⟨'O', _, rfl, by decide⟩

theorem isWord_of_mem_symbol (op : Connective) : ∀ c ∈ op.symbol, isWord c = true := by
  cases op <;> exact of_all rfl

theorem startsWithWord_mark {c : Char} (nonword : isWord c = false) (op : Connective) (t : Text) :
    startsWithWord op.symbol (c :: t) = false := by
  obtain ⟨d, s, eq, letter⟩ := op.symbol_cons
  have differ : (d == c) = false := by
    rw [beq_eq_false_iff_ne]
    rintro rfl
    rw [letter] at nonword
    contradiction
  rw [startsWithWord, eq, List.isPrefixOf_cons_cons, differ]
  rfl

theorem cutAtTopWord_tighter {k : Nat} {t : Text} (tighter : Tighter k t) {op : Connective}
    (loose : op.tightness ≤ k) (rest : Text) (ends : atWordEnd rest = true)
    (previous : Option Char) :
    cutAtTopWord? op.symbol previous 0 (t ++ rest) =
      (cutAtTopWord? op.symbol (lastOf previous t) 0 rest).map (prepend t) := by
  induction tighter generalizing previous with
  | nil => exact (map_prepend_nil _).symm
  | word nonempty letters free here _ ih =>
    rw [List.append_assoc, cutAtTopWord_word (isWord_of_mem_symbol op) nonempty letters
      (free op loose) (atWordEnd_append here ends), ih, map_prepend_prepend, lastOf_append]
  | @mark c t nonword opens closes _ _ ih =>
    rw [List.cons_append, cutAtTopWord_pass _ _ _ _ opens closes
      (by rw [startsWithWord_mark nonword, Bool.and_false]), ih]
    exact map_prepend_prepend [c] t _
  | group inner _ ih =>
    rw [List.append_assoc, cutAtTopWord_group inner, ih, map_prepend_prepend]
    simp [parenthesized, lastOf, lastOf_append]

theorem cutAtTopWord_eq_none {k : Nat} {t : Text} (tighter : Tighter k t) {op : Connective}
    (loose : op.tightness ≤ k) (previous : Option Char) :
    cutAtTopWord? op.symbol previous 0 t = none := by
  have passed := cutAtTopWord_tighter tighter loose [] rfl previous
  simpa [cutAtTopWord?] using passed

theorem topLevelFrom_nil (op : Comparison) : topLevelFrom op.symbol 0 [] = none := rfl

theorem isWord_of_isComparisonChar {c : Char} (sign : isComparisonChar c = true) :
    isWord c = false := by
  simp only [isComparisonChar, Bool.or_eq_true, decide_eq_true_eq] at sign
  rcases sign with (rfl | rfl) | rfl <;> decide

theorem Comparison.symbol_cons (op : Comparison) :
    ∃ c t, op.symbol = c :: t ∧ isComparisonChar c = true := by
  cases op <;> exact ⟨_, _, rfl, rfl⟩

theorem topLevelFrom_pass_char {c : Char} (opens : c ≠ '(') (closes : c ≠ ')')
    (other : isComparisonChar c = false) (op : Comparison) (t : Text) :
    topLevelFrom op.symbol 0 (c :: t) = (topLevelFrom op.symbol 0 t).map (· + 1) := by
  obtain ⟨d, s, eq, sign⟩ := op.symbol_cons
  apply topLevelFrom_pass _ _ opens closes
  rintro ⟨-, starts⟩
  rw [eq, List.isPrefixOf_cons_cons, Bool.and_eq_true, beq_iff_eq] at starts
  rw [← starts.1, sign] at other
  contradiction

theorem topLevelFrom_letters {w : Text} (letters : ∀ c ∈ w, isWord c = true) (op : Comparison)
    (rest : Text) :
    topLevelFrom op.symbol 0 (w ++ rest) =
      (topLevelFrom op.symbol 0 rest).map (· + w.length) := by
  induction w with
  | nil => simp
  | cons c w ih =>
    have letter := letters c (by simp)
    obtain ⟨opens, closes⟩ := paren_of_isWord letter
    have other : isComparisonChar c = false := by
      cases sign : isComparisonChar c with
      | false => rfl
      | true =>
        rw [isWord_of_isComparisonChar sign] at letter
        contradiction
    rw [List.cons_append, topLevelFrom_pass_char opens closes other,
      ih (fun d mem => letters d (by simp [mem])), map_add_add]
    rfl

theorem topLevelFrom_tighter {k : Nat} {t : Text} (tighter : Tighter k t) (loose : 3 ≤ k)
    (op : Comparison) (rest : Text) :
    topLevelFrom op.symbol 0 (t ++ rest) =
      (topLevelFrom op.symbol 0 rest).map (· + t.length) := by
  induction tighter with
  | nil => simp
  | word _ letters _ _ _ ih =>
    rw [List.append_assoc, topLevelFrom_letters letters, ih, map_add_add, List.length_append,
      Nat.add_comm]
  | @mark c t nonword opens closes free _ ih =>
    rw [List.cons_append, topLevelFrom_pass_char opens closes (free loose), ih, map_add_add]
    rfl
  | group inner _ ih =>
    rw [List.append_assoc, topLevelFrom_group inner, ih, map_add_add, List.length_append,
      Nat.add_comm]

end StructuredText
