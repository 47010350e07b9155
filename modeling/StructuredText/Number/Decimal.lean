import StructuredText.Number.Integer
import StructuredText.Number.LReal

/- Decimal text of LREAL numbers: the fewest digits that read back to the number, and of these the
   nearest. -/
namespace StructuredText
namespace LReal

attribute [local instance (2000)] instPowNat

def ofDecimal (negative : Bool) (digits : Nat) (exponent : Int) : LReal :=
  ofRatio negative (digits * 10 ^ exponent.toNat) (10 ^ (-exponent).toNat)

/-- The reals that round to `mantissa * 2 ^ exponent`, all in units of `2 ^ (exponent - 2)`. -/
structure Surroundings where
  low : Nat
  value : Nat
  high : Nat
  unit : Int
  closed : Bool

/-- Below a power of two the neighbours lie twice as close. -/
def surroundings (mantissa : Nat) (exponent : Int) : Surroundings :=
  let low :=
    if mantissa = 2 ^ (precision - 1) ∧ exponent > leastExponent then 4 * mantissa - 1
    else 4 * mantissa - 2
  ⟨low, 4 * mantissa, 4 * mantissa + 2, exponent - 2, mantissa % 2 = 0⟩

def Surroundings.onGrid (s : Surroundings) (place : Int) : Nat × Nat × Nat × Nat :=
  let factor := 2 ^ s.unit.toNat * 10 ^ (-place).toNat
  (s.low * factor, s.value * factor, s.high * factor, 2 ^ (-s.unit).toNat * 10 ^ place.toNat)

/-- The multiple of `10 ^ place` that reads back to the number and is nearest to it.  Only the two
    multiples beside the value need a test. -/
def Surroundings.pointOnGrid? (s : Surroundings) (place : Int) : Option Nat :=
  let (low, value, high, den) := s.onGrid place
  let below := value / den
  let above := below + 1
  let belowHits := if s.closed then low ≤ below * den else low < below * den
  let aboveHits := if s.closed then above * den ≤ high else above * den < high
  if belowHits ∧ aboveHits then some (nearest value den)
  else if belowHits then some below
  else if aboveHits then some above
  else none

def Surroundings.firstPoint (s : Surroundings) : Nat → Int → Nat × Int
  | 0, place => (nearest (s.onGrid place).2.1 (s.onGrid place).2.2.2, place)
  | grids + 1, place =>
    match s.pointOnGrid? place with
    | some point => (point, place)
    | none => s.firstPoint grids (place - 1)

/-- A place at or above that of the number's first digit; 0.30103 is just over log₁₀ 2. -/
def placeAbove (mantissa : Nat) (exponent : Int) : Int :=
  (exponent + Nat.log2 mantissa + 1) * 30103 / 100000 + 1

/-- Seventeen digits always suffice, and the search starts at most two places too high. -/
def shortestDecimal (mantissa : Nat) (exponent : Int) : Nat × Int :=
  (surroundings mantissa exponent).firstPoint 20 (placeAbove mantissa exponent)

structure DecimalForm where
  /-- The least and the greatest exponent written without an exponent part. -/
  plainFrom : Int
  plainTo : Int
  /-- The least number of digits in an exponent part. -/
  exponentDigits : Nat

/-- Exponents from -4 to 15 are written out, with a digit after the point at least. -/
def decimalForm : DecimalForm := ⟨-4, 15, 2⟩

def exponentText (form : DecimalForm) (exponent : Int) : Text :=
  let digits := naturalText exponent.natAbs
  'e' :: (if exponent < 0 then '-' else '+') ::
    (List.replicate (form.exponentDigits - digits.length) '0' ++ digits)

def decimalText (form : DecimalForm) (digits : Text) (exponent : Int) : Text :=
  if form.plainFrom ≤ exponent ∧ exponent ≤ form.plainTo then
    if exponent < 0 then
      "0.".toList ++ List.replicate (-exponent - 1).toNat '0' ++ digits
    else
      let whole := exponent.toNat + 1
      let padded := digits ++ List.replicate (whole + 1 - digits.length) '0'
      padded.take whole ++ '.' :: padded.drop whole
  else
    let fraction := if digits.length > 1 then '.' :: digits.drop 1 else []
    digits.take 1 ++ fraction ++ exponentText form exponent

def unsignedText (mantissa : Nat) (exponent : Int) : Text :=
  if mantissa = 0 then "0.0".toList
  else
    let (point, place) := shortestDecimal mantissa exponent
    let digits := naturalText point
    decimalText decimalForm digits (place + digits.length - 1)

def text : LReal → Text
  | .finite negative mantissa exponent =>
    (if negative then ['-'] else []) ++ unsignedText mantissa exponent
  | .infinite negative => if negative then "-inf".toList else "inf".toList
  | .nan => "nan".toList

def exponent? : Text → Option Int
  | [] => some 0
  | c :: t =>
    if c ≠ 'e' then none
    else match t with
      | '-' :: digits => if isDigits digits then some (-digitsValue digits) else none
      | '+' :: digits => if isDigits digits then some (digitsValue digits) else none
      | digits => if isDigits digits then some (digitsValue digits) else none
where
  isDigits (t : Text) : Bool := !t.isEmpty && t.all isDecimal

def ofUnsignedText? (negative : Bool) (t : Text) : Option LReal :=
  if t = "inf".toList then some (.infinite negative)
  else if t = "nan".toList then some .nan
  else
    let whole := t.takeWhile isDecimal
    let rest := t.dropWhile isDecimal
    let fraction := match rest with
      | '.' :: digits => digits.takeWhile isDecimal
      | _ => []
    let rest := match rest with
      | '.' :: digits => digits.dropWhile isDecimal
      | _ => rest
    if whole.isEmpty then none
    else (exponent? rest).map fun exponent =>
      ofDecimal negative (digitsValue (whole ++ fraction)) (exponent - fraction.length)

def ofText? : Text → Option LReal
  | '-' :: t => ofUnsignedText? true t
  | t => ofUnsignedText? false t

end LReal
end StructuredText
