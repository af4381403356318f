import Waymark.Json.Fault
import Waymark.Json.Glyph
import Waymark.Json.Numeral
/-!
# Numbers in documents

A number is a whole part, a fraction and an exponent, each read as far as its digits go.
-/

namespace Waymark.Json

def isDigit : Glyph → Bool
  | .char c => c.isDigit
  | .stray => false

def chars (glyphs : List Glyph) : List Char :=
  glyphs.filterMap fun
    | .char c => some c
    | .stray => none

def leadingDigits (text : List Glyph) : List Char × List Glyph :=
  (chars (text.takeWhile isDigit), text.dropWhile isDigit)

/-- A number that stops before a digit it needs is cut short only if the document ends there. -/
def missingDigit (rest : List Glyph) : Break :=
  ⟨if rest.isEmpty then .truncated else .malformed, .malformed⟩

def scanDigits (text : List Glyph) : Except Break (List Char × List Glyph) :=
  let (digits, rest) := leadingDigits text
  if digits.isEmpty then .error (missingDigit rest) else .ok (digits, rest)

def scanWhole (text : List Glyph) : Except Break (List Char × List Glyph) := do
  let (digits, rest) ← scanDigits text
  if digits.head? = some '0' && digits.length ≠ 1 then .error (.both .malformed)
  else .ok (digits, rest)

def scanFraction : List Glyph → Except Break (List Char × List Glyph)
  | [] => .ok ([], [])
  | glyph :: text =>
      if glyph = .char '.' then scanDigits text else .ok ([], glyph :: text)

def scanSign : List Glyph → Bool × List Glyph
  | [] => (false, [])
  | glyph :: text =>
      if glyph = .char '-' then (true, text)
      else if glyph = .char '+' then (false, text)
      else (false, glyph :: text)

def scanExponent : List Glyph → Except Break (Option Exponent × List Glyph)
  | [] => .ok (none, [])
  | glyph :: text =>
      if glyph = .char 'e' || glyph = .char 'E' then do
        let (negative, text) := scanSign text
        let (digits, rest) ← scanDigits text
        .ok (some ⟨negative, digits⟩, rest)
      else .ok (none, glyph :: text)

def scanNumeral (negative : Bool) (text : List Glyph) : Except Break (Numeral × List Glyph) := do
  let (whole, text) ← scanWhole text
  let (fraction, text) ← scanFraction text
  let (exponent, text) ← scanExponent text
  .ok (⟨negative, whole, fraction, exponent⟩, text)

theorem scanDigits_length {text rest : List Glyph} {digits : List Char}
    (scanned : scanDigits text = .ok (digits, rest)) : rest.length < text.length := by
  have whole := congrArg List.length (List.takeWhile_append_dropWhile (p := isDigit) (l := text))
  rw [List.length_append] at whole
  unfold scanDigits leadingDigits at scanned
  cases taken : text.takeWhile isDigit with
  | nil => simp [taken, chars] at scanned
  | cons glyph glyphs =>
      simp only [taken, List.length_cons] at whole
      grind

theorem scanWhole_length {text rest : List Glyph} {digits : List Char}
    (scanned : scanWhole text = .ok (digits, rest)) : rest.length < text.length := by
  unfold scanWhole at scanned
  cases first : scanDigits text with
  | error fault => simp [first, bind, Except.bind] at scanned
  | ok result =>
      simp only [first, bind, Except.bind] at scanned
      split at scanned
      · cases scanned
      · cases scanned
        exact scanDigits_length first

theorem scanFraction_length {text rest : List Glyph} {digits : List Char}
    (scanned : scanFraction text = .ok (digits, rest)) : rest.length ≤ text.length := by
  cases text with
  | nil => cases scanned; simp
  | cons glyph text =>
      simp only [scanFraction] at scanned
      split at scanned
      · have := scanDigits_length scanned
        simp only [List.length_cons]
        omega
      · cases scanned
        simp

theorem scanSign_length (text : List Glyph) : (scanSign text).2.length ≤ text.length := by
  unfold scanSign
  split <;> (try split) <;> (try split) <;> simp

theorem scanExponent_length {text rest : List Glyph} {exponent : Option Exponent}
    (scanned : scanExponent text = .ok (exponent, rest)) : rest.length ≤ text.length := by
  cases text with
  | nil => cases scanned; simp
  | cons glyph text =>
      simp only [scanExponent] at scanned
      split at scanned
      · cases digits : scanDigits (scanSign text).2 with
        | error fault => simp [digits, bind, Except.bind] at scanned
        | ok result =>
            simp only [digits, bind, Except.bind] at scanned
            cases scanned
            have := scanDigits_length digits
            have := scanSign_length text
            simp only [List.length_cons]
            omega
      · cases scanned
        simp

theorem scanNumeral_length {negative : Bool} {text rest : List Glyph} {numeral : Numeral}
    (scanned : scanNumeral negative text = .ok (numeral, rest)) : rest.length < text.length := by
  unfold scanNumeral at scanned
  cases whole : scanWhole text with
  | error fault => simp [whole, bind, Except.bind] at scanned
  | ok afterWhole =>
      simp only [whole, bind, Except.bind] at scanned
      cases fraction : scanFraction afterWhole.2 with
      | error fault => simp [fraction] at scanned
      | ok afterFraction =>
          simp only [fraction] at scanned
          cases exponent : scanExponent afterFraction.2 with
          | error fault => simp [exponent] at scanned
          | ok afterExponent =>
              simp only [exponent] at scanned
              cases scanned
              have := scanWhole_length whole
              have := scanFraction_length fraction
              have := scanExponent_length exponent
              omega

end Waymark.Json
