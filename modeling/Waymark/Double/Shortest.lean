import Waymark.Double
/-!
# Shortest decimal text

A number is written with the fewest significant digits that read back as it, and among those with
the digits nearest to it. Scientific exponents from -5 to 15 are written in positional notation.
-/

namespace Waymark.Double

structure Decimal where
  digits : Nat
  exponent : Int

namespace Decimal

def fractionLe (a b : Nat × Nat) : Bool :=
  a.1 * b.2 ≤ b.1 * a.2

def fraction (decimal : Decimal) : Nat × Nat :=
  match decimal.exponent with
  | .ofNat power => (decimal.digits * Nat.pow 10 power, 1)
  | .negSucc power => (decimal.digits, Nat.pow 10 (power + 1))

end Decimal

def halfUnits (count : Nat) : Nat × Nat :=
  (count, 2 * unit)

/-- Whether a decimal lies among the numbers that round to the code, above zero. An end of that
interval, half way to a neighbour, belongs to it when the code is even. -/
def readsBack (code : Nat) (decimal : Decimal) : Bool :=
  let low := halfUnits (unitsOf (code - 1) + unitsOf code)
  let high := halfUnits (unitsOf code + unitsOf (code + 1))
  let value := decimal.fraction
  if code % 2 = 0 then Decimal.fractionLe low value && Decimal.fractionLe value high
  else !Decimal.fractionLe value low && !Decimal.fractionLe high value

def scientificExponent (dividend divisor : Nat) : Int :=
  let estimate := ((toString dividend).length : Int) - (toString divisor).length
  let power := (Decimal.mk 1 estimate).fraction
  if Decimal.fractionLe power (dividend, divisor) then estimate else estimate - 1

/-- The decimals of the given exponent just below and just above a code, the nearer one first. -/
def neighbours (code : Nat) (exponent : Int) : List Decimal :=
  let step := (Decimal.mk 1 exponent).fraction
  let dividend := unitsOf code * step.2
  let divisor := unit * step.1
  let below := dividend / divisor
  let nearest := roundDiv dividend divisor
  [⟨nearest, exponent⟩, ⟨if nearest = below then below + 1 else below, exponent⟩]

/-- Seventeen digits always read back. -/
def shortest (code : Nat) : Decimal :=
  let top := scientificExponent (unitsOf code) unit
  let grids := (List.range 17).map fun (places : Nat) => top - (places : Int)
  ((grids.flatMap (neighbours code)).find? (readsBack code)).getD ⟨0, 0⟩

def scientific (decimal : Decimal) : List Char × Int :=
  let digits := Nat.toDigits 10 decimal.digits
  ((digits.reverse.dropWhile (· = '0')).reverse, decimal.exponent + digits.length - 1)

def exponentText (exponent : Int) : List Char :=
  'e' :: (if exponent < 0 then '-' else '+') :: Nat.toDigits 10 exponent.natAbs

def zeros (count : Nat) : List Char :=
  List.replicate count '0'

def layout (digits : List Char) (exponent : Int) : List Char :=
  if exponent < -5 || 15 < exponent then
    let rest := digits.drop 1
    digits.take 1 ++ (if rest.isEmpty then [] else '.' :: rest) ++ exponentText exponent
  else if exponent < 0 then
    ['0', '.'] ++ zeros (exponent.natAbs - 1) ++ digits
  else
    let whole := exponent.natAbs + 1
    let rest := digits.drop whole
    digits.take whole ++ zeros (whole - digits.length) ++
      '.' :: (if rest.isEmpty then ['0'] else rest)

def text (value : Double) : List Char :=
  let digits := if value.isZero then ['0', '.', '0']
    else let (digits, exponent) := scientific (shortest value.code); layout digits exponent
  if value.negative then '-' :: digits else digits

end Waymark.Double
