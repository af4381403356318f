/-!
# Whole numbers in text

A number is an optional sign and at least one decimal digit, within the given limits.
-/

namespace Waymark.Text

def signedLimit : Nat :=
  9223372036854775808

def countLimit : Nat :=
  18446744073709551616

def digitValue (c : Char) : Nat :=
  c.toNat - '0'.toNat

def digitsValue (digits : List Char) : Nat :=
  digits.foldl (fun value c => value * 10 + digitValue c) 0

def wholeDigits? (digits : List Char) : Option Nat :=
  if digits.isEmpty || !digits.all Char.isDigit then none else some (digitsValue digits)

def signed? : List Char → Option Int
  | '-' :: digits => (wholeDigits? digits).map fun value => -(value : Int)
  | '+' :: digits => (wholeDigits? digits).map fun value => (value : Int)
  | digits => (wholeDigits? digits).map fun value => (value : Int)

def int64? (text : String) : Option Int := do
  let value ← signed? text.toList
  if -(signedLimit : Int) ≤ value && value < signedLimit then some value else none

def count64? (text : String) : Option Nat := do
  let digits := match text.toList with
    | '+' :: digits => digits
    | digits => digits
  let value ← wholeDigits? digits
  if value < countLimit then some value else none

def clamp (low high value : Int) : Int :=
  if value < low then low else if high < value then high else value

end Waymark.Text
