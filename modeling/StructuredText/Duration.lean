import StructuredText.Number.Integer
import StructuredText.Text.Blank
import StructuredText.Text.Fold

/- Duration literals such as `T#1m30s`, in milliseconds. -/
namespace StructuredText

/-- Milliseconds in a unit.  A unit of another spelling counts as milliseconds. -/
def unitFactor (unit : Text) : Nat :=
  ([("ms".toList, 1), ("s".toList, 1000), ("m".toList, 60000),
    ("h".toList, 3600000)].lookup (unit.map Char.toLower)).getD 1

def milliseconds (value : Int) (unit : Text) : Int := value * unitFactor unit

def unit? (t : Text) : Option (Text × Text) :=
  if startsFolded "MS".toList t then some (t.take 2, t.drop 2)
  else if startsFolded "H".toList t || startsFolded "M".toList t || startsFolded "S".toList t then
    some (t.take 1, t.drop 1)
  else none

def durationPart? (t : Text) : Option ((Text × Text) × Text) :=
  let digits := t.takeWhile isDecimal
  if digits.isEmpty then none
  else (unit? (t.dropWhile isDecimal)).map fun (unit, rest) => ((digits, unit), rest)

def durationPartsWithin : (count : Nat) → Text → Option (List (Text × Text))
  | 0, _ => none
  | count + 1, t =>
    match durationPart? t with
    | none => none
    | some (part, []) => some [part]
    | some (part, rest) => (durationPartsWithin count rest).map (part :: ·)

def durationParts? (t : Text) : Option (List (Text × Text)) := durationPartsWithin t.length t

def durationBody? (t : Text) : Option Text :=
  if startsFolded "T#".toList t then some (t.drop 2)
  else if startsFolded "TIME#".toList t then some (t.drop 5)
  else none

-- A sum starts from the number 0 itself.
attribute [local instance (2000)] Zero.ofOfNat0

/-- The sum of the parts, unless one of them has too many digits. -/
def partsSum? (parts : List (Text × Text)) : Option Nat :=
  (parts.mapM fun (digits, unit) => (natural? digits).map (· * unitFactor unit)).map List.sum

def duration? (t : Text) : Option Nat := do
  let body ← durationBody? (trim t)
  let parts ← durationParts? body
  partsSum? parts

theorem unitFactor_pos (unit : Text) : 0 < unitFactor unit := by
  simp only [unitFactor, List.lookup_cons, List.lookup_nil]
  repeat' split
  all_goals decide

end StructuredText
