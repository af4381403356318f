import Waymark.Text.Blank
import Waymark.Text.Integer
/-!
# Scanning text

A scan takes something from the beginning of a text, or fails.
-/

namespace Waymark.Text

abbrev Scan :=
  StateT (List Char) Option

namespace Scan

def blanks : Scan Unit :=
  modify dropBlanks

def dropAll (isMember : Char → Bool) : Scan Unit :=
  modify (List.dropWhile isMember)

def char? : Scan (Option Char) := do
  match ← get with
  | [] => return none
  | c :: rest => set rest; return some c

def oneOf (isMember : Char → Bool) : Scan Char := do
  match ← char? with
  | some c => if isMember c then return c else failure
  | none => failure

def literal (c : Char) : Scan Unit :=
  discard (oneOf (· = c))

def takeAll (isMember : Char → Bool) (limit : Option Nat) : Scan (List Char) := do
  let text ← get
  let taken := text.takeWhile isMember
  let taken := match limit with
    | some limit => taken.take limit
    | none => taken
  set (text.drop taken.length)
  return taken

def digits (limit : Option Nat) : Scan (List Char) := do
  let digits ← takeAll Char.isDigit limit
  if digits.isEmpty then failure else return digits

def number (width : Nat) : Scan Nat := do
  blanks
  return digitsValue (← digits (some width))

/-- A year behind blanks. It may have any length if it has a sign. -/
def year : Scan Int := do
  blanks
  match (← get).head? with
  | some '-' => discard char?; return -(digitsValue (← digits none) : Int)
  | some '+' => discard char?; return (digitsValue (← digits none) : Int)
  | _ => return (digitsValue (← digits (some 4)) : Int)

def atEnd : Scan Unit := do
  if (← get).isEmpty then return else failure

end Scan
end Waymark.Text
