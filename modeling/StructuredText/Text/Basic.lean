/- Source text as a list of code points.  Offsets, columns and lengths count code points. -/
namespace StructuredText

abbrev Text := List Char

def after? (word t : Text) : Option Text :=
  if word.isPrefixOf t then some (t.drop word.length) else none

theorem after?_eq_some_iff {word t rest : Text} :
    after? word t = some rest ↔ t = word ++ rest := by
  simp only [after?]
  constructor
  · intro found
    split at found
    · next starts =>
      obtain ⟨tail, rfl⟩ := List.isPrefixOf_iff_prefix.mp starts
      simp at found
      rw [found]
    · simp at found
  · rintro rfl
    simp

def before? (word t : Text) : Option Text :=
  if word.isSuffixOf t then some (t.take (t.length - word.length)) else none

theorem before?_eq_some_iff {word t start : Text} :
    before? word t = some start ↔ t = start ++ word := by
  simp only [before?]
  constructor
  · intro found
    split at found
    · next ends =>
      obtain ⟨head, rfl⟩ := List.isSuffixOf_iff_suffix.mp ends
      simp at found
      rw [found]
    · simp at found
  · rintro rfl
    simp

def withoutFinal (c : Char) (t : Text) : Text :=
  if t.getLast? = some c then t.dropLast else t

def withoutTrailing (c : Char) (t : Text) : Text := (t.reverse.dropWhile (· == c)).reverse

def findText? (word : Text) : Text → Option Nat
  | [] => if word.isEmpty then some 0 else none
  | c :: t => if word.isPrefixOf (c :: t) then some 0 else (findText? word t).map (· + 1)

def containsText (word t : Text) : Bool := (findText? word t).isSome

end StructuredText
