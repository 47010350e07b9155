import StructuredText.Text.Digit

/- Decimal numerals.  One of more than `numeralLimit` digits is neither read nor written. -/
namespace StructuredText

def numeralLimit : Nat := 4300

def digitsValue (t : Text) : Nat := t.foldl (fun n c => 10 * n + (digitValue? c).getD 0) 0

/-- Reads digits; leading zeros count towards the limit. -/
def natural? (digits : Text) : Option Nat :=
  if digits.length ≤ numeralLimit then some (digitsValue digits) else none

def naturalText (n : Nat) : Text := Nat.toDigits 10 n

def integerText : Int → Text
  | .ofNat n => naturalText n
  | .negSucc n => '-' :: naturalText (n + 1)

/-- The numeral of `n` has no more digits than may be written. -/
def isWritableInteger (n : Int) : Bool := (naturalText n.natAbs).length ≤ numeralLimit

theorem natural?_isSome_iff (digits : Text) :
    (natural? digits).isSome ↔ digits.length ≤ numeralLimit := by
  simp only [natural?]
  split <;> simp_all

theorem digitsValue_append (s t : Text) :
    digitsValue (s ++ t) = t.foldl (fun n c => 10 * n + (digitValue? c).getD 0) (digitsValue s) := by
  simp [digitsValue]

end StructuredText
