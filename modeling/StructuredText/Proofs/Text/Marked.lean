import StructuredText.Proofs.Text.Boundary

/- Texts with a quotation mark in them.  The mark is part of no word and no blank, so what is read
   from the beginning of the text depends on what stands before the mark, and what is searched for
   stands before it or behind it. -/
namespace StructuredText

def IsQuote (c : Char) : Prop := c = '\'' ∨ c = '"'

theorem startsFolded_eq_isPrefixOf (word t : Text) :
    startsFolded word t = word.isPrefixOf (t.map fold) := by
  rw [startsFolded, List.map_take, Bool.eq_iff_iff, beq_iff_eq, List.isPrefixOf_iff_prefix,
    List.prefix_iff_eq_take, eq_comm]

namespace IsQuote
variable {mark : Char} (quote : IsQuote mark)
include quote

theorem apart {holds : Char → Bool} (free : holds '\'' = false ∧ holds '"' = false) :
    holds mark = false := by
  rcases quote with rfl | rfl
  · exact free.1
  · exact free.2

theorem ne {c : Char} (other : c ≠ '\'' ∧ c ≠ '"') : mark ≠ c := by
  rcases quote with rfl | rfl
  · exact Ne.symm other.1
  · exact Ne.symm other.2

theorem isWord : isWord mark = false := quote.apart (by decide)

theorem isBlank : isBlank mark = false := quote.apart (by decide)

theorem fold_eq : fold mark = mark := by
  rcases quote with rfl | rfl <;> decide

theorem not_mem {word : Text} (letters : ∀ c ∈ word, StructuredText.isWord c = true) :
    mark ∉ word := by
  intro mem
  have letter := letters mark mem
  rw [quote.isWord] at letter
  contradiction

theorem not_mem_listed {words : List Text}
    (free : ∀ w ∈ words, ∀ c ∈ w, c ≠ '\'' ∧ c ≠ '"') {word : Text} (listed : word ∈ words) :
    mark ∉ word := fun mem => quote.ne (free word listed mark mem) rfl

end IsQuote

section Beginning
variable {mark : Char} (left rest : Text)

theorem takeWhile_marked {test : Char → Bool} (stops : test mark = false) :
    (left ++ mark :: rest).takeWhile test = left.takeWhile test := by
  induction left with
  | nil => exact List.takeWhile_cons_of_neg (by simp [stops])
  | cons c left ih => rw [List.cons_append, List.takeWhile_cons, List.takeWhile_cons, ih]

theorem dropWhile_marked {test : Char → Bool} (stops : test mark = false) :
    (left ++ mark :: rest).dropWhile test = left.dropWhile test ++ mark :: rest := by
  induction left with
  | nil => exact List.dropWhile_cons_of_neg (by simp [stops])
  | cons c left ih =>
    rw [List.cons_append, List.dropWhile_cons, List.dropWhile_cons, ih]
    split <;> rfl

theorem after?_marked {word : Text} (free : mark ∉ word) :
    after? word (left ++ mark :: rest) = (after? word left).map (· ++ mark :: rest) := by
  rw [after?, after?, isPrefixOf_append free]
  split
  · next starts =>
    obtain ⟨behind, rfl⟩ := List.isPrefixOf_iff_prefix.mp starts
    rw [List.append_assoc, List.drop_left, List.drop_left]
    rfl
  · rfl

variable (quote : IsQuote mark)
include quote

theorem trimLeft_marked : trimLeft (left ++ mark :: rest) = trimLeft left ++ mark :: rest :=
  dropWhile_marked left rest quote.isBlank

theorem leadingBlanks_marked : leadingBlanks (left ++ mark :: rest) = leadingBlanks left :=
  congrArg List.length (takeWhile_marked left rest quote.isBlank)

theorem trimRight_marked : trimRight (left ++ mark :: rest) = left ++ mark :: trimRight rest := by
  have reversed : (left ++ mark :: rest).reverse = rest.reverse ++ mark :: left.reverse := by simp
  rw [trimRight, reversed, dropWhile_marked _ _ quote.isBlank, trimRight]
  simp

theorem trim_marked :
    trim (left ++ mark :: rest) = trimLeft left ++ mark :: trimRight rest := by
  rw [trim, trimLeft_marked left rest quote, trimRight_marked _ _ quote]

theorem atWordEnd_marked : atWordEnd (left ++ mark :: rest) = atWordEnd left := by
  cases left with
  | nil => simp [atWordEnd, quote.isWord]
  | cons c left => rfl

theorem word?_marked : word? (left ++ mark :: rest) =
    (word? left).map fun (word, behind) => (word, behind ++ mark :: rest) := by
  rw [word?, word?, takeWhile_marked left rest quote.isWord, dropWhile_marked left rest quote.isWord]
  split <;> rfl

theorem afterBlanks?_marked :
    afterBlanks? (left ++ mark :: rest) = (afterBlanks? left).map (· ++ mark :: rest) := by
  cases left with
  | nil => simp [afterBlanks?, quote.isBlank]
  | cons c left =>
    rw [List.cons_append, afterBlanks?, afterBlanks?, trimLeft_marked left rest quote]
    split <;> rfl

section Word
variable {word : Text} (free : mark ∉ word)
include free

theorem startsWithWord_marked :
    startsWithWord word (left ++ mark :: rest) = startsWithWord word left := by
  rw [startsWithWord, startsWithWord, isPrefixOf_append free]
  cases starts : word.isPrefixOf left with
  | false => rfl
  | true =>
    obtain ⟨behind, rfl⟩ := List.isPrefixOf_iff_prefix.mp starts
    rw [List.append_assoc, List.drop_left, List.drop_left, atWordEnd_marked _ _ quote]

theorem startsFolded_marked :
    startsFolded word (left ++ mark :: rest) = startsFolded word left := by
  rw [startsFolded_eq_isPrefixOf, startsFolded_eq_isPrefixOf, List.map_append, List.map_cons,
    quote.fold_eq, isPrefixOf_append free]

omit quote free in
theorem length_le_of_startsFolded (starts : startsFolded word left = true) :
    word.length ≤ left.length := by
  rw [startsFolded_eq_isPrefixOf, List.isPrefixOf_iff_prefix] at starts
  simpa using starts.length_le

theorem startsFoldedWord_marked :
    startsFoldedWord word (left ++ mark :: rest) = startsFoldedWord word left := by
  rw [startsFoldedWord, startsFoldedWord, startsFolded_marked left rest quote free]
  cases starts : startsFolded word left with
  | false => rfl
  | true =>
    rw [List.drop_append_of_le_length (length_le_of_startsFolded left starts),
      atWordEnd_marked _ _ quote]

end Word

end Beginning

section Search
variable {mark : Char} {word : Text} (filled : word ≠ []) (free : mark ∉ word)
include filled free

theorem isPrefixOf_mark (rest : Text) : word.isPrefixOf (mark :: rest) = false := by
  have start := isPrefixOf_append free [] rest
  cases word with
  | nil => contradiction
  | cons c word => exact start

theorem containsText_marked (left rest : Text) : containsText word (left ++ mark :: rest) =
    (containsText word left || containsText word rest) := by
  induction left with
  | nil =>
    have none : containsText word [] = false := by simpa [containsText, findText?] using filled
    rw [none, List.nil_append, containsText, findText?, isPrefixOf_mark filled free]
    simp [containsText]
  | cons c left ih =>
    have here := isPrefixOf_append free (c :: left) rest
    rw [List.cons_append] at here
    simp only [containsText, List.cons_append, findText?, here] at ih ⊢
    cases word.isPrefixOf (c :: left) <;> simp [ih]

variable (quote : IsQuote mark)
include quote

omit filled free in
theorem cutAtWord?_mark (t : Text) : cutAtWord? word (some mark) t = cutAtWord? word none t := by
  have starts : atWordStart (some mark) = true := by simp [atWordStart, quote.isWord]
  cases t with
  | nil => rfl
  | cons c t => rw [cutAtWord?, cutAtWord?, starts]; rfl

theorem containsWord_marked (left rest : Text) : containsWord word (left ++ mark :: rest) =
    (containsWord word left || containsWord word rest) := by
  have cut (previous : Option Char) : (cutAtWord? word previous (left ++ mark :: rest)).isSome =
      ((cutAtWord? word previous left).isSome || (cutAtWord? word none rest).isSome) := by
    induction left generalizing previous with
    | nil =>
      simp [cutAtWord?, startsWithWord, isPrefixOf_mark filled free, cutAtWord?_mark quote]
    | cons c left ih =>
      have here := startsWithWord_marked (c :: left) rest quote free
      rw [List.cons_append] at here
      rw [List.cons_append, cutAtWord?, cutAtWord?, here]
      cases atWordStart previous && startsWithWord word (c :: left) <;> simp [ih]
  exact cut none

end Search

end StructuredText
