import StructuredText.Proofs.Text.Boundary

/- The words of a text: its longest runs of word characters.  A text contains a word exactly where
   this is one of them. -/
namespace StructuredText

/-- The runs of word characters between the other characters, empty ones included. -/
def wordsOf (t : Text) : List Text := t.splitOnP (! isWord ·)

theorem wordsOf_append {c : Char} (other : isWord c = false) (s t : Text) :
    wordsOf (s ++ c :: t) = wordsOf s ++ wordsOf t :=
  List.splitOnP_append_cons s t (by simp [other])

theorem wordsOf_cons {c : Char} (other : isWord c = false) (t : Text) :
    wordsOf (c :: t) = [] :: wordsOf t := wordsOf_append other [] t

theorem wordsOf_letters {w : Text} (letters : ∀ c ∈ w, isWord c = true) : wordsOf w = [w] :=
  List.splitOnP_eq_singleton fun c mem => by simp [letters c mem]

theorem wordsOf_word {w rest : Text} (letters : ∀ c ∈ w, isWord c = true)
    (ends : atWordEnd rest = true) : ∃ more, wordsOf (w ++ rest) = w :: more := by
  cases rest with
  | nil => exact ⟨[], by rw [List.append_nil, wordsOf_letters letters]⟩
  | cons c rest =>
    have other : isWord c = false := by simpa [atWordEnd] using ends
    exact ⟨wordsOf rest, by rw [wordsOf_append other, wordsOf_letters letters]; rfl⟩

theorem mem_of_mem_wordsOf {t w : Text} (mem : w ∈ wordsOf t) {c : Char} (inside : c ∈ w) :
    c ∈ t := by
  induction t generalizing w with
  | nil =>
    obtain rfl : w = [] := by simpa [wordsOf] using mem
    contradiction
  | cons d t ih =>
    rw [wordsOf, List.splitOnP_cons_eq_if_modifyHead] at mem
    split at mem
    · rcases List.mem_cons.mp mem with rfl | mem
      · contradiction
      · exact List.mem_cons_of_mem d (ih mem inside)
    · obtain ⟨first, more, split⟩ := List.exists_cons_of_ne_nil (List.splitOnP_ne_nil (! isWord ·) t)
      rw [split, List.modifyHead_cons] at mem
      have within {v : Text} (mem : v ∈ first :: more) : v ∈ wordsOf t := by rwa [wordsOf, split]
      rcases List.mem_cons.mp mem with rfl | mem
      · rcases List.mem_cons.mp inside with rfl | inside
        · exact List.mem_cons_self
        · exact List.mem_cons_of_mem d (ih (within List.mem_cons_self) inside)
      · exact List.mem_cons_of_mem d (ih (within (List.mem_cons_of_mem first mem)) inside)

theorem wordsOf_cons_tail (c : Char) (t : Text) :
    (wordsOf t).tail ⊆ (wordsOf (c :: t)).tail := by
  intro w mem
  cases word : isWord c with
  | false =>
    rw [wordsOf_cons word]
    exact List.mem_of_mem_tail mem
  | true =>
    obtain ⟨first, more, split⟩ := List.exists_cons_of_ne_nil (List.splitOnP_ne_nil (! isWord ·) t)
    have joined : wordsOf (c :: t) = (c :: first) :: more := by
      rw [wordsOf, List.splitOnP_cons_eq_if_modifyHead, if_neg (by simp [word]), split]
      rfl
    rw [wordsOf, split] at mem
    rw [joined]
    exact mem

/-- A whole word that is cut out of a text is one of its words; it is not the first one if the text
    goes on with a word begun before it. -/
theorem mem_wordsOf_of_cut {word : Text} (letters : ∀ c ∈ word, isWord c = true)
    {previous : Option Char} {t : Text} {cut : Text × Text}
    (found : cutAtWord? word previous t = some cut) :
    word ∈ wordsOf t ∧ (atWordStart previous = false → word ∈ (wordsOf t).tail) := by
  induction t generalizing previous cut with
  | nil => contradiction
  | cons c t ih =>
    rw [cutAtWord?] at found
    split at found
    · next here =>
      obtain ⟨begins, starts⟩ := (Bool.and_eq_true _ _).mp here
      obtain ⟨isPrefix, ends⟩ := (Bool.and_eq_true _ _).mp starts
      obtain ⟨rest, whole⟩ := List.isPrefixOf_iff_prefix.mp isPrefix
      rw [← whole, List.drop_left] at ends
      obtain ⟨more, split⟩ := wordsOf_word letters ends
      rw [whole] at split
      rw [split]
      exact ⟨List.mem_cons_self, fun inner => absurd (inner.symm.trans begins) (by decide)⟩
    · obtain ⟨cut', found', -⟩ := Option.map_eq_some_iff.mp found
      obtain ⟨inside, later⟩ := ih found'
      have behind : word ∈ (wordsOf (c :: t)).tail := by
        cases isLetter : isWord c with
        | false =>
          rw [wordsOf_cons isLetter]
          exact inside
        | true => exact wordsOf_cons_tail c t (later (by simp [atWordStart, isLetter]))
      exact ⟨List.mem_of_mem_tail behind, fun _ => behind⟩

theorem containsWord_eq_false {word t : Text} (letters : ∀ c ∈ word, isWord c = true)
    (missing : word ∉ wordsOf t) : containsWord word t = false := by
  cases found : cutAtWord? word none t with
  | none => simp [containsWord, found]
  | some cut => exact absurd (mem_wordsOf_of_cut letters found).1 missing

end StructuredText
