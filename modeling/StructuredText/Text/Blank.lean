import StructuredText.Text.Basic
import StructuredText.Text.Range

/- Blanks: the white space of Unicode and the four separator controls below the space. -/
namespace StructuredText

def blankRanges : List (Nat × Nat) := [
  (0x09, 0x0D), (0x1C, 0x20), (0x85, 0x85), (0xA0, 0xA0), (0x1680, 0x1680), (0x2000, 0x200A),
  (0x2028, 0x2029), (0x202F, 0x202F), (0x205F, 0x205F), (0x3000, 0x3000)]

def isBlank (c : Char) : Bool := inRanges blankRanges c

theorem isBlank_of_isWhitespace {c : Char} (white : c.isWhitespace) : isBlank c := by
  simp only [Char.isWhitespace, Bool.or_eq_true, decide_eq_true_eq] at white
  rcases white with ((rfl | rfl) | rfl) | rfl <;> decide

def trimLeft (t : Text) : Text := t.dropWhile isBlank

def trimRight (t : Text) : Text := (t.reverse.dropWhile isBlank).reverse

def trim (t : Text) : Text := trimRight (trimLeft t)

def leadingBlanks (t : Text) : Nat := (t.takeWhile isBlank).length

theorem leadingBlanks_add_length (t : Text) :
    leadingBlanks t + (trimLeft t).length = t.length := by
  rw [leadingBlanks, trimLeft, ← List.length_append, List.takeWhile_append_dropWhile]

def afterBlanks? : Text → Option Text
  | [] => none
  | c :: t => if isBlank c then some (trimLeft t) else none

end StructuredText
