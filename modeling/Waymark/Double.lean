/-!
# Doubles

Finite binary64 numbers. A magnitude is counted by its code: 0 is zero and each next code is the
next larger number, so the order of codes is the order of magnitudes.
-/

namespace Waymark

/-- There are `2 ^ 52` numbers from a power of two up to the next. -/
abbrev Double.binade : Nat :=
  4503599627370496

structure Double where
  negative : Bool
  code : Nat
  code_lt : code < 2047 * Double.binade
  deriving DecidableEq

namespace Double

/-- The smallest magnitude above zero is `2 ^ -1074`; the others are whole multiples of it. -/
def unit : Nat :=
  Nat.pow 2 1074

def unitsOf (code : Nat) : Nat :=
  let step := code / binade - 1
  (code - step * binade) * Nat.pow 2 step

def units (value : Double) : Nat :=
  unitsOf value.code

def roundDiv (dividend divisor : Nat) : Nat :=
  let whole := dividend / divisor
  let rest := 2 * (dividend % divisor)
  if rest < divisor || (rest = divisor && whole % 2 = 0) then whole else whole + 1

/-- The code nearest to a quotient of units. Magnitudes of more than 53 bits are rounded to 53. -/
def nearestCode (dividend divisor : Nat) : Nat :=
  let step := (dividend / divisor).log2 - 52
  step * binade + roundDiv dividend (divisor * Nat.pow 2 step)

def ofCode? (negative : Bool) (code : Nat) : Option Double :=
  if inside : code < 2047 * binade then some ⟨negative, code, inside⟩ else none

def ofQuotient? (negative : Bool) (dividend divisor : Nat) : Option Double :=
  ofCode? negative (nearestCode (dividend * unit) divisor)

def zero (negative : Bool) : Double :=
  ⟨negative, 0, by decide⟩

def isZero (value : Double) : Bool :=
  value.code = 0

def ofNat? (value : Nat) : Option Double :=
  ofQuotient? false value 1

def ofInt? (value : Int) : Option Double :=
  ofQuotient? (value < 0) value.natAbs 1

def neg (value : Double) : Double :=
  { value with negative := !value.negative }

def mul? (a b : Double) : Option Double :=
  ofQuotient? (a.negative != b.negative) (a.units * b.units) (unit * unit)

def div? (a b : Double) : Option Double :=
  ofQuotient? (a.negative != b.negative) a.units b.units

def same (a b : Double) : Bool :=
  a.code = b.code && (a.negative == b.negative || a.isZero)

end Double
end Waymark
