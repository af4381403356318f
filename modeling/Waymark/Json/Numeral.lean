import Waymark.Json
import Waymark.Text.Integer
/-!
# Numerals

The value of a written number. A plain integer that fits 64 bits is kept whole. Of any other
numeral the leading digits that fit 64 bits are rounded to a double, which is then multiplied or
divided by a rounded power of ten, 308 places at a time.
-/

namespace Waymark.Json

structure Exponent where
  negative : Bool
  digits : List Char
  deriving DecidableEq

structure Numeral where
  negative : Bool
  whole : List Char
  fraction : List Char
  exponent : Option Exponent
  deriving DecidableEq

namespace Numeral

def append (limit value : Nat) : List Char → Nat × List Char
  | [] => (value, [])
  | digit :: digits =>
      let next := value * 10 + Text.digitValue digit
      if next ≤ limit then append limit next digits else (value, digit :: digits)

def significandLimit : Nat :=
  Text.countLimit - 1

def exponentLimit : Nat :=
  2147483647

/-- Digits of the whole part that do not fit count as places; those of the fraction are dropped. -/
def significand (numeral : Numeral) : Nat × Int :=
  let (whole, places) := append significandLimit 0 numeral.whole
  let (value, dropped) := append significandLimit whole numeral.fraction
  (value, (places.length : Int) - (numeral.fraction.length - dropped.length : Nat))

def powerOfTen (exponent : Nat) : Double :=
  (Double.ofNat? (Nat.pow 10 exponent)).getD (.zero false)

def greatestPower : Nat :=
  308

def divide (value : Double) (places : Nat) : Double :=
  (value.div? (powerOfTen places)).getD (.zero false)

def lower (value : Double) (places : Nat) : Double :=
  if places ≤ greatestPower then divide value places
  else if value.isZero then value
  else lower (divide value greatestPower) (places - greatestPower)
termination_by places
decreasing_by simp [greatestPower] at *; omega

def scale? (value : Double) : Int → Option Double
  | .ofNat places =>
      if places ≤ greatestPower then value.mul? (powerOfTen places)
      else if value.isZero then some value
      else none
  | .negSucc places => some (lower value (places + 1))

/-- An exponent beyond 31 bits makes the number zero, or too large if it is positive. -/
def magnitude? (numeral : Numeral) : Option Double := do
  let (value, places) := numeral.significand
  match numeral.exponent with
  | none => scale? (← Double.ofNat? value) places
  | some exponent =>
      let (shift, beyond) := append exponentLimit 0 exponent.digits
      if beyond.isEmpty then
        let total := if exponent.negative then places - (shift : Int) else places + (shift : Int)
        scale? (← Double.ofNat? value) total
      else if value = 0 || exponent.negative then some (.zero false)
      else none

def double? (numeral : Numeral) : Option Number := do
  let magnitude ← numeral.magnitude?
  some (.double (if numeral.negative then magnitude.neg else magnitude))

def value? (numeral : Numeral) : Option Number :=
  if numeral.fraction.isEmpty && numeral.exponent.isNone then
    let (value, beyond) := append significandLimit 0 numeral.whole
    if !beyond.isEmpty then numeral.double?
    else if !numeral.negative then some (.integer value)
    else if value = 0 || Text.signedLimit < value then numeral.double?
    else some (.integer (-value))
  else numeral.double?

end Numeral
end Waymark.Json
