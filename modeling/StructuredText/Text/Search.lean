import StructuredText.Text.Fold
import StructuredText.Text.Word

/- Whole words inside a text: a word counts only where no word character touches it. -/
namespace StructuredText

def atWordEnd (t : Text) : Bool := t.head?.all (! isWord ·)

def atWordStart (previous : Option Char) : Bool := previous.all (! isWord ·)

def startsWithWord (word t : Text) : Bool := word.isPrefixOf t && atWordEnd (t.drop word.length)

def startsFoldedWord (word t : Text) : Bool := startsFolded word t && atWordEnd (t.drop word.length)

def cutAtWord? (word : Text) (previous : Option Char) : Text → Option (Text × Text)
  | [] => none
  | c :: t =>
    if atWordStart previous && startsWithWord word (c :: t) then
      some ([], (c :: t).drop word.length)
    else (cutAtWord? word (some c) t).map fun (start, rest) => (c :: start, rest)

def containsWord (word t : Text) : Bool := (cutAtWord? word none t).isSome

theorem append_of_cutAtWord? {word : Text} {previous : Option Char} {t start rest : Text}
    (cut : cutAtWord? word previous t = some (start, rest)) : t = start ++ word ++ rest := by
  induction t generalizing previous start with
  | nil => simp [cutAtWord?] at cut
  | cons c t ih =>
    rw [cutAtWord?] at cut
    split at cut
    · next here =>
      simp only [Bool.and_eq_true, startsWithWord] at here
      obtain ⟨tail, eq⟩ := List.isPrefixOf_iff_prefix.mp here.2.1
      simp only [Option.some.injEq, Prod.mk.injEq] at cut
      obtain ⟨rfl, rfl⟩ := cut
      rw [← eq]
      simp
    · obtain ⟨⟨start', rest'⟩, found, eq⟩ := Option.map_eq_some_iff.mp cut
      simp only [Prod.mk.injEq] at eq
      obtain ⟨rfl, rfl⟩ := eq
      simp [ih found]

end StructuredText
