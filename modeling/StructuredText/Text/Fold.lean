import StructuredText.Text.Basic

/- Where the case of letters is ignored, a letter counts as its capital.  Four letters beyond
   ASCII belong to an ASCII capital: long s, dotted and dotless i, and the kelvin sign. -/
namespace StructuredText

def fold (c : Char) : Char :=
  match c.toNat with
  | 0x17F => 'S'
  | 0x130 => 'I'
  | 0x131 => 'I'
  | 0x212A => 'K'
  | _ => c.toUpper

def startsFolded (word t : Text) : Bool := (t.take word.length).map fold == word

theorem fold_of_ascii {c : Char} (ascii : c.toNat < 128) : fold c = c.toUpper := by
  unfold fold
  split
  case h_5 => rfl
  all_goals omega

theorem startsFolded_self (word rest : Text) (capital : ∀ c ∈ word, fold c = c) :
    startsFolded word (word ++ rest) := by
  have same : word.map fold = word := by
    rw [List.map_congr_left capital, List.map_id']
  simp [startsFolded, same]

end StructuredText
