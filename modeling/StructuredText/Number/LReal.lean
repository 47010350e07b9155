/- The IEC type LREAL: binary numbers of 64 bits.  Each operation is exact first and then rounded
   to the nearest number, a tie to the even one. -/
namespace StructuredText

/-- A finite number is ± mantissa * 2 ^ exponent.  Zero has a sign. -/
inductive LReal
  | finite (negative : Bool) (mantissa : Nat) (exponent : Int)
  | infinite (negative : Bool)
  | nan
  deriving DecidableEq

namespace LReal

-- Powers of natural numbers and integers as such, not as those of a monoid.
attribute [local instance (2000)] instPowNat

def precision : Nat := 53

def leastExponent : Int := -1074

def greatestExponent : Int := 971

def zero (negative : Bool) : LReal := .finite negative 0 leastExponent

def nearest (num den : Nat) : Nat :=
  let quotient := num / den
  let twice := 2 * (num % den)
  if twice > den ∨ (twice = den ∧ quotient % 2 = 1) then quotient + 1 else quotient

def scaled (num den : Nat) (exponent : Int) : Nat × Nat :=
  (num * 2 ^ (-exponent).toNat, den * 2 ^ exponent.toNat)

/-- The exponent at which the mantissa of `num / den` has `precision` bits. -/
def normalExponent (num den : Nat) : Int :=
  let guess : Int := Nat.log2 num - Nat.log2 den - (precision - 1 : Nat)
  let atGuess := scaled num den guess
  if atGuess.1 < 2 ^ (precision - 1) * atGuess.2 then guess - 1 else guess

/-- Rounding may carry into one bit more, and may leave the range. -/
def ofRounded (negative : Bool) (mantissa : Nat) (exponent : Int) : LReal :=
  if mantissa = 2 ^ precision then
    if exponent + 1 > greatestExponent then .infinite negative
    else .finite negative (2 ^ (precision - 1)) (exponent + 1)
  else if exponent > greatestExponent then .infinite negative
  else .finite negative mantissa exponent

def ofRatio (negative : Bool) (num den : Nat) : LReal :=
  if num = 0 then zero negative
  else
    let exponent := max leastExponent (normalExponent num den)
    let fraction := scaled num den exponent
    ofRounded negative (nearest fraction.1 fraction.2) exponent

def ofScaled (negative : Bool) (mantissa : Nat) (exponent : Int) : LReal :=
  ofRatio negative (mantissa * 2 ^ exponent.toNat) (2 ^ (-exponent).toNat)

def ofInt (n : Int) : LReal := ofRatio (n < 0) n.natAbs 1

instance : OfNat LReal n := ⟨ofInt n⟩
instance : NatCast LReal := ⟨fun n => ofInt n⟩

def signed (negative : Bool) (n : Nat) : Int := if negative then -n else n

def add : LReal → LReal → LReal
  | .finite sign₁ m₁ e₁, .finite sign₂ m₂ e₂ =>
    let e := min e₁ e₂
    let sum := signed sign₁ (m₁ * 2 ^ (e₁ - e).toNat) + signed sign₂ (m₂ * 2 ^ (e₂ - e).toNat)
    if sum = 0 then zero (sign₁ && sign₂) else ofScaled (sum < 0) sum.natAbs e
  | .infinite sign₁, .infinite sign₂ => if sign₁ = sign₂ then .infinite sign₁ else .nan
  | .infinite sign, .finite .. => .infinite sign
  | .finite .., .infinite sign => .infinite sign
  | _, _ => .nan

def mul : LReal → LReal → LReal
  | .finite sign₁ m₁ e₁, .finite sign₂ m₂ e₂ => ofScaled (sign₁ != sign₂) (m₁ * m₂) (e₁ + e₂)
  | .infinite sign₁, .infinite sign₂ => .infinite (sign₁ != sign₂)
  | .infinite sign₁, .finite sign₂ m _ => if m = 0 then .nan else .infinite (sign₁ != sign₂)
  | .finite sign₁ m _, .infinite sign₂ => if m = 0 then .nan else .infinite (sign₁ != sign₂)
  | _, _ => .nan

instance : Add LReal := ⟨add⟩
instance : Mul LReal := ⟨mul⟩

/-- Numbers are equal by value: the zeros are, NaN is not even to itself. -/
def same : LReal → LReal → Bool
  | .finite sign₁ m₁ e₁, .finite sign₂ m₂ e₂ =>
    let e := min e₁ e₂
    signed sign₁ (m₁ * 2 ^ (e₁ - e).toNat) = signed sign₂ (m₂ * 2 ^ (e₂ - e).toNat)
  | .infinite sign₁, .infinite sign₂ => sign₁ = sign₂
  | _, _ => false

def isInteger (n : Int) : LReal → Bool
  | .finite sign m e => signed sign (m * 2 ^ e.toNat) = n * (2 ^ (-e).toNat : Nat)
  | _ => false

theorem nearest_of_dvd (n den : Nat) (positive : 0 < den) : nearest (n * den) den = n := by
  have : ¬ den = 0 := by omega
  simp [nearest, Nat.mul_div_cancel n positive, Nat.mul_mod_left, Ne.symm this]

end LReal
end StructuredText
