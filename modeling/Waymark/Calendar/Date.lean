/-!
# Calendar dates

Dates of the Gregorian calendar, continued before its introduction, and the days between them.
-/

namespace Waymark

structure Date where
  year : Int
  month : Nat
  day : Nat
  deriving DecidableEq

namespace Date

def isLeap (year : Int) : Bool :=
  year % 4 = 0 && (year % 100 ≠ 0 || year % 400 = 0)

def monthLength (year : Int) (month : Nat) : Nat :=
  if month = 2 then (if isLeap year then 29 else 28)
  else if [4, 6, 9, 11].contains month then 30
  else 31

def firstYear : Int :=
  -262143

def lastYear : Int :=
  262142

def Valid (date : Date) : Prop :=
  firstYear ≤ date.year ∧ date.year ≤ lastYear ∧ 1 ≤ date.month ∧ date.month ≤ 12 ∧
    1 ≤ date.day ∧ date.day ≤ monthLength date.year date.month

instance (date : Date) : Decidable date.Valid :=
  inferInstanceAs (Decidable (_ ∧ _))

def of? (year : Int) (month day : Nat) : Option Date :=
  if Valid ⟨year, month, day⟩ then some ⟨year, month, day⟩ else none

/-- The days from the first day of year 1 to the first day of a year. -/
def daysBeforeYear (year : Int) : Int :=
  let past := year - 1
  365 * past + past.fdiv 4 - past.fdiv 100 + past.fdiv 400

def daysBeforeMonth (year : Int) (month : Nat) : Nat :=
  (List.range (month - 1)).foldl (fun days earlier => days + monthLength year (earlier + 1)) 0

def epoch : Int :=
  daysBeforeYear 1970

def number (date : Date) : Int :=
  daysBeforeYear date.year + daysBeforeMonth date.year date.month + date.day - 1 - epoch

/-- The last of some counts that does not lie behind a day. -/
def lastNotAfter (day : Int) (before : Int → Int) (counts : List Int) (first : Int) : Int :=
  counts.foldl (fun last count => if before count ≤ day then count else last) first

def ofNumber (number : Int) : Date :=
  let day := number + epoch
  let estimate := (day * 400).fdiv 146097 + 1
  let year := lastNotAfter day daysBeforeYear [estimate, estimate + 1] (estimate - 1)
  let rest := day - daysBeforeYear year
  let months := (List.range 12).map fun (month : Nat) => (month : Int) + 1
  let month := (lastNotAfter rest (fun month => daysBeforeMonth year month.toNat) months 1).toNat
  ⟨year, month, (rest - daysBeforeMonth year month).toNat + 1⟩

end Date
end Waymark
