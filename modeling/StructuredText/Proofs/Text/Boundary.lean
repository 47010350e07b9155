import StructuredText.Text.Blank
import StructuredText.Text.Search

/- Where a word ends and where trimming stops: at the first character of another kind. -/
namespace StructuredText

theorem of_ascii (holds : Char → Prop) (all : ∀ n < 128, holds (Char.ofNat n)) {c : Char}
    (ascii : c.toNat < 128) : holds c := by
  have here := all c.toNat ascii
  rwa [Char.ofNat_toNat] at here

theorem of_all {t : Text} {holds : Char → Prop} [DecidablePred holds]
    (all : (t.all fun c => decide (holds c)) = true) : ∀ c ∈ t, holds c := by
  simpa using all

theorem of_all_words {words : List Text} {holds : Char → Prop} [DecidablePred holds]
    (all : (words.all fun w => w.all fun c => decide (holds c)) = true) :
    ∀ w ∈ words, ∀ c ∈ w, holds c := by
  simpa using all

theorem toNat_lt_of_isAsciiWord {c : Char} (word : isAsciiWord c = true) : c.toNat < 128 := by
  have capital : c.isUpper = decide (c.val ≥ 'A'.val ∧ c.val ≤ 'Z'.val) := rfl
  have lower : c.isLower = (decide (c.val ≥ 'a'.val) && decide (c.val ≤ 'z'.val)) := rfl
  have letter : c.isAlpha = (c.isUpper || c.isLower) := rfl
  simp only [isAsciiWord, Char.isAlphanum, letter, capital, lower, Char.isDigit, Bool.or_eq_true,
    Bool.and_eq_true, decide_eq_true_eq, UInt32.le_iff_toNat_le] at word
  have small : ∀ n : UInt32, c.val.toNat ≤ n.toNat → n.toNat < 128 → c.toNat < 128 :=
    fun n below bound => Nat.lt_of_le_of_lt below bound
  rcases word with ((⟨-, upper⟩ | ⟨-, lower⟩) | ⟨-, digit⟩) | rfl
  · exact small 90 upper (by decide)
  · exact small 122 lower (by decide)
  · exact small 57 digit (by decide)
  · decide

theorem isWord_of_isAsciiWord {c : Char} (word : isAsciiWord c = true) : isWord c = true := by
  rw [isWord_of_ascii (toNat_lt_of_isAsciiWord word), word]

theorem isBlank_of_isAsciiWord {c : Char} (word : isAsciiWord c = true) : isBlank c = false := by
  exact of_ascii (fun c => isAsciiWord c = true → isBlank c = false) (by decide)
    (toNat_lt_of_isAsciiWord word) word

theorem blankRanges_apart :
    (blankRanges.all fun r => alphanumericRanges.all fun s => r.2 < s.1 || s.2 < r.1) = true := by
  decide +kernel

theorem isWord_of_isBlank {c : Char} (blank : isBlank c = true) : isWord c = false := by
  by_cases ascii : c.toNat < 128
  · cases word : isAsciiWord c with
    | false => rw [isWord_of_ascii ascii, word]
    | true =>
      rw [isBlank_of_isAsciiWord word] at blank
      contradiction
  · cases word : isWord c with
    | false => rfl
    | true =>
      rw [isWord, if_neg ascii] at word
      obtain ⟨r, inBlank, low, high⟩ := (inRanges_iff _ _).mp blank
      obtain ⟨s, inWord, low', high'⟩ := (inRanges_iff _ _).mp word
      have apart := blankRanges_apart
      simp only [List.all_eq_true, Bool.or_eq_true, decide_eq_true_eq] at apart
      have := apart r inBlank s inWord
      omega

theorem isBlank_of_isWord {c : Char} (word : isWord c = true) : isBlank c = false := by
  cases blank : isBlank c with
  | false => rfl
  | true =>
    rw [isWord_of_isBlank blank] at word
    contradiction

theorem trimLeft_cons {c : Char} (inner : isBlank c = false) (t : Text) :
    trimLeft (c :: t) = c :: t := by
  simp [trimLeft, inner]

theorem withoutTrailing_cons {c d : Char} (other : d ≠ c) (t : Text) :
    withoutTrailing c (d :: t) = d :: withoutTrailing c t := by
  have kept : (d == c) = false := beq_eq_false_iff_ne.mpr other
  rw [withoutTrailing, List.reverse_cons, List.dropWhile_append]
  cases rest : t.reverse.dropWhile (· == c) with
  | nil => simp [withoutTrailing, rest, kept]
  | cons e u => simp [withoutTrailing, rest]

theorem withoutTrailing_append {c : Char} {w : Text} (free : c ∉ w) (t : Text) :
    withoutTrailing c (w ++ t) = w ++ withoutTrailing c t := by
  induction w with
  | nil => rfl
  | cons d w ih =>
    rw [List.mem_cons, not_or] at free
    rw [List.cons_append, withoutTrailing_cons (Ne.symm free.1), ih free.2, List.cons_append]

theorem withoutFinal_append (c : Char) (t : Text) : withoutFinal c (t ++ [c]) = t := by
  rw [withoutFinal, List.getLast?_concat, if_pos rfl, List.dropLast_concat]

theorem isPrefixOf_append {word : Text} {c : Char} (free : c ∉ word) (t rest : Text) :
    word.isPrefixOf (t ++ c :: rest) = word.isPrefixOf t := by
  induction word generalizing t with
  | nil => rw [List.isPrefixOf_nil_left, List.isPrefixOf_nil_left]
  | cons d word ih =>
    rw [List.mem_cons, not_or] at free
    have differ : (d == c) = false := beq_eq_false_iff_ne.mpr (Ne.symm free.1)
    cases t with
    | nil => rw [List.nil_append, List.isPrefixOf_cons_cons, differ]; rfl
    | cons e t =>
      rw [List.cons_append, List.isPrefixOf_cons_cons, List.isPrefixOf_cons_cons, ih free.2]

theorem containsText_iff {word t : Text} : containsText word t = true ↔ word <:+: t := by
  induction t with
  | nil =>
    rw [containsText, findText?, List.infix_nil]
    cases word <;> simp
  | cons c t ih =>
    rw [containsText, findText?, List.infix_cons_iff, ← ih, ← List.isPrefixOf_iff_prefix]
    cases word.isPrefixOf (c :: t) with
    | true => simp
    | false => simp [containsText]

structure IsTrimmed (t : Text) : Prop where
  first : ∃ c ∈ t.head?, isBlank c = false
  last : ∃ c ∈ t.getLast?, isBlank c = false

theorem IsTrimmed.ne_nil {t : Text} (trimmed : IsTrimmed t) : t ≠ [] := by
  obtain ⟨c, first, -⟩ := trimmed.first
  rintro rfl
  contradiction

theorem IsTrimmed.between {s t : Text} (left : IsTrimmed s) (right : IsTrimmed t) (u : Text) :
    IsTrimmed (s ++ u ++ t) := by
  obtain ⟨c, first, inner⟩ := left.first
  obtain ⟨d, last, inner'⟩ := right.last
  refine ⟨⟨c, ?_, inner⟩, ⟨d, ?_, inner'⟩⟩
  · cases s with
    | nil => contradiction
    | cons e s => exact first
  · rw [List.getLast?_append, Option.mem_def.mp last]
    rfl

theorem IsTrimmed.append {s t : Text} (left : IsTrimmed s) (right : IsTrimmed t) :
    IsTrimmed (s ++ t) := by
  have joined := left.between right []
  rwa [List.append_nil] at joined

theorem isTrimmed_of_solid {t : Text} (nonempty : t ≠ []) (solid : ∀ c ∈ t, isBlank c = false) :
    IsTrimmed t := by
  constructor
  · exact ⟨t.head nonempty, List.head?_eq_some_head nonempty, solid _ (List.head_mem nonempty)⟩
  · exact ⟨t.getLast nonempty, List.getLast?_eq_some_getLast nonempty,
      solid _ (List.getLast_mem nonempty)⟩

theorem dropWhile_eq_self {test : Char → Bool} {t : Text}
    (stays : ∃ c ∈ t.head?, test c = false) : t.dropWhile test = t := by
  obtain ⟨c, first, stays⟩ := stays
  cases t with
  | nil => contradiction
  | cons d t =>
    obtain rfl := Option.some.inj first
    rw [List.dropWhile_cons_of_neg (by simp [stays])]

theorem trimLeft_append {s : Text} (first : ∃ c ∈ s.head?, isBlank c = false) (t : Text) :
    trimLeft (s ++ t) = s ++ t := by
  obtain ⟨c, first, inner⟩ := first
  exact dropWhile_eq_self ⟨c, by rw [List.head?_append, Option.mem_def.mp first]; rfl, inner⟩

theorem trimRight_append (s : Text) {t : Text} (last : ∃ c ∈ t.getLast?, isBlank c = false) :
    trimRight (s ++ t) = s ++ t := by
  obtain ⟨c, last, inner⟩ := last
  have stays : ∃ c ∈ (s ++ t).reverse.head?, isBlank c = false := by
    refine ⟨c, ?_, inner⟩
    rw [List.head?_reverse, List.getLast?_append, Option.mem_def.mp last]
    rfl
  rw [trimRight, dropWhile_eq_self stays, List.reverse_reverse]

theorem trim_surrounded {a t b : Text} (trimmed : IsTrimmed t) (left : ∀ c ∈ a, isBlank c = true)
    (right : ∀ c ∈ b, isBlank c = true) : trim (a ++ t ++ b) = t := by
  have first : ∃ c ∈ (t ++ b).head?, isBlank c = false := by
    obtain ⟨c, first, inner⟩ := trimmed.first
    exact ⟨c, by rw [List.head?_append, Option.mem_def.mp first]; rfl, inner⟩
  have last : ∃ c ∈ t.reverse.head?, isBlank c = false := by
    simpa using trimmed.last
  have right' : ∀ c ∈ b.reverse, isBlank c = true := fun c mem => right c (List.mem_reverse.mp mem)
  rw [trim, trimLeft, List.append_assoc, List.dropWhile_append_of_pos left, dropWhile_eq_self first,
    trimRight, List.reverse_append, List.dropWhile_append_of_pos right', dropWhile_eq_self last,
    List.reverse_reverse]

theorem trim_eq_self {t : Text} (trimmed : IsTrimmed t) : trim t = t := by
  simpa using trim_surrounded (a := []) (b := []) trimmed (by simp) (by simp)

theorem exists_trim (t : Text) :
    ∃ a b, t = a ++ trim t ++ b ∧ (∀ c ∈ a, isBlank c = true) ∧ ∀ c ∈ b, isBlank c = true := by
  refine ⟨t.takeWhile isBlank, ((trimLeft t).reverse.takeWhile isBlank).reverse, ?_,
    List.all_eq_true.mp List.all_takeWhile,
    fun c mem => List.all_eq_true.mp List.all_takeWhile c (List.mem_reverse.mp mem)⟩
  have right : trimLeft t =
      trim t ++ ((trimLeft t).reverse.takeWhile isBlank).reverse := by
    rw [trim, trimRight, ← List.reverse_append, List.takeWhile_append_dropWhile,
      List.reverse_reverse]
  rw [List.append_assoc, ← right, trimLeft, List.takeWhile_append_dropWhile]

theorem first_trimLeft {t : Text} (filled : trimLeft t ≠ []) :
    ∃ c ∈ (trimLeft t).head?, isBlank c = false := by
  have stops := List.head?_dropWhile_not isBlank t
  obtain ⟨c, s, shape⟩ := List.exists_cons_of_ne_nil filled
  rw [trimLeft] at shape
  rw [shape] at stops
  rw [trimLeft, shape]
  exact ⟨c, rfl, by simpa using stops⟩

theorem isTrimmed_trim {t : Text} (filled : trim t ≠ []) : IsTrimmed (trim t) := by
  have backwards : (trim t).reverse = trimLeft (trimLeft t).reverse := by
    rw [trim, trimRight, List.reverse_reverse]
    rfl
  constructor
  · have start : trim t <+: trimLeft t := by
      rw [← List.reverse_suffix, backwards]
      exact List.dropWhile_suffix _
    obtain ⟨rest, whole⟩ := start
    obtain ⟨c, s, shape⟩ := List.exists_cons_of_ne_nil filled
    have more : trimLeft t ≠ [] := by
      rw [← whole, shape]
      exact List.cons_ne_nil _ _
    obtain ⟨d, head, inner⟩ := first_trimLeft more
    rw [← whole, shape] at head
    rw [shape]
    exact ⟨d, head, inner⟩
  · have stops := @first_trimLeft (trimLeft t).reverse (by rw [← backwards]; simpa using filled)
    rwa [← backwards, List.head?_reverse] at stops

theorem trim_between {a t b : Text} (filled : trim t ≠ []) (left : ∀ c ∈ a, isBlank c = true)
    (right : ∀ c ∈ b, isBlank c = true) : trim (a ++ t ++ b) = trim t := by
  obtain ⟨a', b', whole, left', right'⟩ := exists_trim t
  have joined : a ++ t ++ b = (a ++ a') ++ trim t ++ (b' ++ b) := by
    calc a ++ t ++ b = a ++ (a' ++ trim t ++ b') ++ b := by rw [← whole]
      _ = (a ++ a') ++ trim t ++ (b' ++ b) := by simp only [List.append_assoc]
  rw [joined]
  exact trim_surrounded (isTrimmed_trim filled) (List.forall_mem_append.mpr ⟨left, left'⟩)
    (List.forall_mem_append.mpr ⟨right', right⟩)

theorem eq_append_of_startsWithWord {word t : Text} (starts : startsWithWord word t = true) :
    ∃ rest, t = word ++ rest ∧ atWordEnd rest = true := by
  obtain ⟨isPrefix, wordEnd⟩ := (Bool.and_eq_true _ _).mp starts
  obtain ⟨rest, rfl⟩ := List.isPrefixOf_iff_prefix.mp isPrefix
  exact ⟨rest, rfl, by simpa using wordEnd⟩

theorem dropWhile_isWord {t : Text} (ends : atWordEnd t = true) : t.dropWhile isWord = t := by
  cases t with
  | nil => rfl
  | cons c t => rw [List.dropWhile_cons_of_neg (by simpa [atWordEnd] using ends)]

theorem takeWhile_isWord {t : Text} (ends : atWordEnd t = true) : t.takeWhile isWord = [] := by
  cases t with
  | nil => rfl
  | cons c t => rw [List.takeWhile_cons_of_neg (by simpa [atWordEnd] using ends)]

theorem takeWhile_word {w t : Text} (letters : ∀ c ∈ w, isWord c = true)
    (ends : atWordEnd t = true) : (w ++ t).takeWhile isWord = w := by
  rw [List.takeWhile_append_of_pos letters, takeWhile_isWord ends, List.append_nil]

theorem word?_append {w t : Text} (nonempty : w ≠ []) (letters : ∀ c ∈ w, isWord c = true)
    (ends : atWordEnd t = true) : word? (w ++ t) = some (w, t) := by
  have filled : w.isEmpty = false := by simpa using nonempty
  rw [word?, takeWhile_word letters ends, filled, List.dropWhile_append_of_pos letters,
    dropWhile_isWord ends]
  rfl

end StructuredText
