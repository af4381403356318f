import Waymark.Calendar.Instant
import Waymark.Text.Scan
/-!
# Written dates and instants

A date is written with underscores. An instant is written in the manner of RFC 3339 for universal
time, and read a little more freely: with blanks around its parts, short numbers, signed years and
any offset below a day.
-/

namespace Waymark

open Text

def padded (width value : Nat) : List Char :=
  let digits := Nat.toDigits 10 value
  List.replicate (width - digits.length) '0' ++ digits

namespace Date

def yearText (year : Int) : List Char :=
  if 0 ≤ year && year ≤ 9999 then padded 4 year.toNat
  else (if year < 0 then '-' else '+') :: padded 4 year.natAbs

def dashed (date : Date) : List Char :=
  yearText date.year ++ '-' :: padded 2 date.month ++ '-' :: padded 2 date.day

def underscored (date : Date) : List Char :=
  yearText date.year ++ '_' :: padded 2 date.month ++ '_' :: padded 2 date.day

def scanUnderscored : Scan Date := do
  let year ← Scan.year
  Scan.literal '_'
  let month ← Scan.number 2
  Scan.literal '_'
  let day ← Scan.number 2
  Scan.atEnd
  of? year month day

def ofUnderscored? (text : List Char) : Option Date :=
  (scanUnderscored.run text).map Prod.fst

end Date

namespace Instant

def fractionText (nanos : Nat) : List Char :=
  if nanos = 0 then []
  else if nanos % 1000000 = 0 then '.' :: padded 3 (nanos / 1000000)
  else if nanos % 1000 = 0 then '.' :: padded 6 (nanos / 1000)
  else '.' :: padded 9 nanos

/-- The second of the minute, which is 60 in a leap second, and the nanoseconds in it. -/
def secondAndNanos (instant : Instant) : Nat × Nat :=
  let second := instant.secondOfDay % 60
  if instant.nanos < 1000000000 then (second, instant.nanos)
  else (second + 1, instant.nanos - 1000000000)

def clockText (instant : Instant) : List Char :=
  let second := instant.secondOfDay
  padded 2 (second / 3600) ++ ':' :: padded 2 (second / 60 % 60) ++
    ':' :: padded 2 instant.secondAndNanos.1

def text (instant : Instant) : String :=
  String.ofList (instant.date.dashed ++ 'T' :: instant.clockText ++
    fractionText instant.secondAndNanos.2 ++ ['Z'])

/-- Digits behind a point; those after the ninth are dropped. -/
def scanFraction : Scan Nat := do
  if (← get).head? = some '.' then
    discard Scan.char?
    let digits ← Scan.digits (some 9)
    Scan.dropAll Char.isDigit
    return digitsValue digits * Nat.pow 10 (9 - digits.length)
  else return 0

def twoDigits (isFirst : Char → Bool) : Scan Nat := do
  let first ← Scan.oneOf isFirst
  let second ← Scan.oneOf Char.isDigit
  return digitsValue [first, second]

def scanOffset : Scan Int := do
  let text ← get
  if (text.take 3).map Char.toLower = ['u', 't', 'c'] then
    set (text.drop 3)
    return 0
  let sign ← Scan.oneOf fun c => ['Z', 'z', '+', '-', '\u2212'].contains c
  if sign = 'Z' || sign = 'z' then return 0
  let hours ← twoDigits Char.isDigit
  Scan.dropAll fun c => c = ':' || isBlank c
  let minutes ← twoDigits fun c => '0' ≤ c && c ≤ '5'
  let offset : Nat := hours * 3600 + minutes * 60
  return if sign = '+' then (offset : Int) else -(offset : Int)

def scanDate : Scan Date := do
  let year ← Scan.year
  Scan.blanks
  Scan.literal '-'
  let month ← Scan.number 2
  Scan.blanks
  Scan.literal '-'
  let day ← Scan.number 2
  Date.of? year month day

def scan : Scan Instant := do
  let date ← scanDate
  discard (Scan.oneOf fun c => c = 't' || c = 'T' || c = ' ')
  let hour ← Scan.number 2
  Scan.blanks
  Scan.literal ':'
  let minute ← Scan.number 2
  Scan.blanks
  Scan.literal ':'
  let second ← Scan.number 2
  let nanos ← scanFraction
  Scan.blanks
  let offset ← scanOffset
  Scan.blanks
  Scan.atEnd
  if 23 < hour || 59 < minute || 60 < second || 86400 ≤ offset.natAbs then failure
  let there := ofDate date hour minute second nanos
  let here : Instant := ⟨there.seconds - offset, there.nanos⟩
  if here.inCalendar then return here else failure

def ofText? (text : String) : Option Instant :=
  (scan.run text.toList).map Prod.fst

end Instant
end Waymark
