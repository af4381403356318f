import Waymark.Proofs.Json.Quoted
import Waymark.Proofs.Text.Digits
/-!
# Written numerals

A numeral reads back from its text. A whole number that fits 64 bits reads back from its digits, and
no other whole number is read.
-/

namespace Waymark

open Text

def Number.Fits : Number → Prop
  | .integer value => -(signedLimit : Int) ≤ value ∧ value < (countLimit : Int)
  | .double _ => True

def Number.IsWhole : Number → Prop
  | .integer _ => True
  | .double _ => False

namespace Json

def Ends (rest : List Glyph) : Prop :=
  ∀ glyph ∈ rest.head?, isDigit glyph = false ∧ glyph ≠ .char '.' ∧ glyph ≠ .char 'e' ∧
    glyph ≠ .char 'E'

theorem ends_nil : Ends [] := by
  simp [Ends]

theorem chars_glyphs (text : List Char) : chars (glyphs text) = text := by
  induction text with
  | nil => rfl
  | cons c rest ih => exact congrArg (c :: ·) ih

theorem leadingDigits_append {digits : List Char} (all : ∀ c ∈ digits, c.isDigit = true)
    {rest : List Glyph} (ends : ∀ glyph ∈ rest.head?, isDigit glyph = false) :
    leadingDigits (glyphs digits ++ rest) = (digits, rest) := by
  have digit : ∀ glyph ∈ glyphs digits, isDigit glyph = true := by
    intro glyph member
    obtain ⟨c, inside, rfl⟩ := List.mem_map.mp member
    exact all c inside
  rw [leadingDigits, List.takeWhile_append_of_pos digit, List.dropWhile_append_of_pos digit]
  cases rest with
  | nil => simp [chars_glyphs]
  | cons glyph others => simp [ends glyph rfl, chars_glyphs]

theorem scanDigits_append {digits : List Char} (nonempty : digits ≠ [])
    (all : ∀ c ∈ digits, c.isDigit = true) {rest : List Glyph}
    (ends : ∀ glyph ∈ rest.head?, isDigit glyph = false) :
    scanDigits (glyphs digits ++ rest) = .ok (digits, rest) := by
  simp [scanDigits, leadingDigits_append all ends, nonempty]

theorem toDigits_head (value : Nat) :
    (Nat.toDigits 10 value).head? = some '0' → (Nat.toDigits 10 value).length = 1 := by
  induction value using Nat.strongRecOn with
  | ind value ih =>
      rw [Nat.toDigits_eq_if (by decide)]
      split
      · simp
      · rename_i large
        obtain ⟨first, others, written⟩ :=
          List.exists_cons_of_ne_nil (Nat.toDigits_ne_nil (n := value / 10) (b := 10))
        have same : (Nat.toDigits 10 (value / 10) ++ [(value % 10).digitChar]).head? =
            (Nat.toDigits 10 (value / 10)).head? := by rw [written]; rfl
        rw [same]
        intro zero
        have single := ih (value / 10) (by omega) zero
        have small := (Nat.length_toDigits_le_iff (b := 10) (by decide) (by decide)).mp
          (Nat.le_of_eq single)
        rw [Nat.toDigits_of_lt_base (by omega)] at zero
        have all : ∀ d < 10, Nat.digitChar d = '0' → d = 0 := by decide
        have := all (value / 10) (by omega) (Option.some.inj zero)
        omega

def Exponent.text (exponent : Exponent) : List Char :=
  'e' :: (if exponent.negative then '-' else '+') :: exponent.digits

namespace Numeral

def unsignedText (numeral : Numeral) : List Char :=
  numeral.whole ++ (if numeral.fraction.isEmpty then [] else '.' :: numeral.fraction) ++
    (numeral.exponent.map Exponent.text).getD []

def text (numeral : Numeral) : List Char :=
  if numeral.negative then '-' :: numeral.unsignedText else numeral.unsignedText

structure WellFormed (numeral : Numeral) : Prop where
  nonempty : numeral.whole ≠ []
  noLeadingZero : numeral.whole.head? = some '0' → numeral.whole.length = 1
  whole : ∀ c ∈ numeral.whole, c.isDigit = true
  fraction : ∀ c ∈ numeral.fraction, c.isDigit = true
  exponent : ∀ exponent ∈ numeral.exponent,
    exponent.digits ≠ [] ∧ ∀ c ∈ exponent.digits, c.isDigit = true

theorem wellFormed_toDigits (negative : Bool) (value : Nat) :
    WellFormed ⟨negative, Nat.toDigits 10 value, [], none⟩ where
  nonempty := Nat.toDigits_ne_nil
  noLeadingZero := toDigits_head value
  whole _ member := isDigit_of_mem_toDigits member
  fraction := by simp
  exponent := by simp

end Numeral

theorem scanExponent_append {exponent : Option Exponent}
    (formed : ∀ found ∈ exponent, found.digits ≠ [] ∧ ∀ c ∈ found.digits, c.isDigit = true)
    {rest : List Glyph} (ends : Ends rest) :
    scanExponent (glyphs ((exponent.map Exponent.text).getD []) ++ rest) = .ok (exponent, rest) := by
  cases exponent with
  | none =>
      cases rest with
      | nil => rfl
      | cons glyph others => simp [scanExponent, (ends glyph rfl).2.2]
  | some found =>
      obtain ⟨nonempty, all⟩ := formed found rfl
      have digits := scanDigits_append nonempty all fun glyph first => (ends glyph first).1
      obtain ⟨negative, written⟩ := found
      cases negative <;>
        simp [Exponent.text, scanExponent, scanSign, digits, bind, Except.bind]

theorem scanFraction_append {fraction : List Char} (all : ∀ c ∈ fraction, c.isDigit = true)
    {rest : List Glyph} (ends : ∀ glyph ∈ rest.head?, isDigit glyph = false ∧ glyph ≠ .char '.') :
    scanFraction (glyphs (if fraction.isEmpty then [] else '.' :: fraction) ++ rest) =
      .ok (fraction, rest) := by
  cases fraction with
  | nil =>
      cases rest with
      | nil => rfl
      | cons glyph others => simp [scanFraction, (ends glyph rfl).2]
  | cons digit digits =>
      change scanDigits (glyphs (digit :: digits) ++ rest) = _
      exact scanDigits_append (List.cons_ne_nil digit digits) all fun glyph first => (ends glyph first).1

theorem scanNumeral_append {numeral : Numeral} (formed : numeral.WellFormed) {rest : List Glyph}
    (ends : Ends rest) :
    scanNumeral numeral.negative (glyphs numeral.unsignedText ++ rest) = .ok (numeral, rest) := by
  obtain ⟨negative, whole, fraction, exponent⟩ := numeral
  -- Neither the exponent nor the fraction begins with a digit, and no exponent with a point.
  have beforeExponent : ∀ glyph ∈ (glyphs ((exponent.map Exponent.text).getD []) ++ rest).head?,
      isDigit glyph = false ∧ glyph ≠ .char '.' := by
    intro glyph first
    cases exponent with
    | none => exact ⟨(ends glyph first).1, (ends glyph first).2.1⟩
    | some found =>
        cases first
        exact ⟨rfl, by decide⟩
  have beforeFraction : ∀ glyph ∈ (glyphs (if fraction.isEmpty then [] else '.' :: fraction) ++
      (glyphs ((exponent.map Exponent.text).getD []) ++ rest)).head?, isDigit glyph = false := by
    intro glyph first
    cases fraction with
    | nil => exact (beforeExponent glyph first).1
    | cons digit digits =>
        cases first
        rfl
  have scannedWhole : ∀ after : List Glyph, (∀ glyph ∈ after.head?, isDigit glyph = false) →
      scanWhole (glyphs whole ++ after) = .ok (whole, after) := by
    intro after stops
    have single := formed.noLeadingZero
    simp only [scanWhole, scanDigits_append formed.nonempty formed.whole stops, bind, Except.bind]
    rw [if_neg]
    simpa using single
  simp only [Numeral.unsignedText, List.map_append, List.append_assoc, scanNumeral,
    scannedWhole _ beforeFraction, scanFraction_append formed.fraction beforeExponent,
    scanExponent_append formed.exponent ends, bind, Except.bind]

theorem le_foldl_digits (digits : List Char) (start : Nat) :
    start ≤ digits.foldl (fun value c => value * 10 + digitValue c) start := by
  induction digits generalizing start with
  | nil => exact Nat.le_refl _
  | cons c rest ih => exact Nat.le_trans (by omega) (ih (start * 10 + digitValue c))

theorem append_digits (limit start : Nat) (digits : List Char)
    (fits : digits.foldl (fun value c => value * 10 + digitValue c) start ≤ limit) :
    Numeral.append limit start digits =
      (digits.foldl (fun value c => value * 10 + digitValue c) start, []) := by
  induction digits generalizing start with
  | nil => rfl
  | cons c rest ih =>
      have next : start * 10 + digitValue c ≤ limit := Nat.le_trans (le_foldl_digits rest _) fits
      rw [Numeral.append, if_pos next, ih _ fits]
      rfl

theorem append_toDigits {limit value : Nat} (small : value ≤ limit) :
    Numeral.append limit 0 (Nat.toDigits 10 value) = (value, []) := by
  have all : (Nat.toDigits 10 value).foldl (fun value c => value * 10 + digitValue c) 0 = value :=
    digitsValue_toDigits value
  rw [append_digits limit 0 _ (Nat.le_trans (Nat.le_of_eq all) small), all]

theorem significand_eq {numeral : Numeral}
    (small : digitsValue (numeral.whole ++ numeral.fraction) < countLimit) :
    numeral.significand =
      (digitsValue (numeral.whole ++ numeral.fraction), -(numeral.fraction.length : Int)) := by
  simp only [digitsValue, List.foldl_append] at small ⊢
  have inside := Nat.le_pred_of_lt small
  have whole := append_digits Numeral.significandLimit 0 numeral.whole
    (Nat.le_trans (le_foldl_digits numeral.fraction _) inside)
  have fraction := append_digits Numeral.significandLimit _ numeral.fraction inside
  simp [Numeral.significand, whole, fraction]

theorem value?_natural {value : Nat} (small : value < countLimit) :
    Numeral.value? ⟨false, Nat.toDigits 10 value, [], none⟩ = some (.integer value) := by
  have inside : value ≤ Numeral.significandLimit := Nat.le_pred_of_lt small
  simp [Numeral.value?, append_toDigits inside]

theorem value?_negative {value : Nat} (positive : 0 < value) (small : value ≤ signedLimit) :
    Numeral.value? ⟨true, Nat.toDigits 10 value, [], none⟩ = some (.integer (-value)) := by
  have inside : value ≤ Numeral.significandLimit := by
    simp only [signedLimit, countLimit, Numeral.significandLimit] at *
    omega
  simp only [Numeral.value?, append_toDigits inside]
  simp
  omega

theorem append_le (limit : Nat) {start : Nat} (inside : start ≤ limit) (digits : List Char) :
    (Numeral.append limit start digits).1 ≤ limit := by
  induction digits generalizing start with
  | nil => exact inside
  | cons c rest ih =>
      rw [Numeral.append]
      split
      · exact ih ‹_›
      · exact inside

theorem fits_of_double? {numeral : Numeral} {number : Number}
    (found : numeral.double? = some number) : number.Fits := by
  simp only [Numeral.double?, Option.bind_eq_bind, Option.bind_eq_some_iff] at found
  obtain ⟨magnitude, -, made⟩ := found
  cases made
  trivial

theorem fits_of_value? {numeral : Numeral} {number : Number}
    (found : numeral.value? = some number) : number.Fits := by
  unfold Numeral.value? at found
  split at found
  · have inside := append_le Numeral.significandLimit (Nat.zero_le _) numeral.whole
    split at found
    rename_i value beyond read
    rw [read] at inside
    simp only [Numeral.significandLimit, countLimit] at inside
    split at found
    · exact fits_of_double? found
    split at found
    · cases found
      simp only [Number.Fits, signedLimit, countLimit]
      omega
    split at found
    · exact fits_of_double? found
    · rename_i negative
      cases found
      have small : ¬signedLimit < value := fun large => negative (by simp [large])
      simp only [signedLimit] at small
      simp only [Number.Fits, signedLimit, countLimit]
      omega
  · exact fits_of_double? found

end Json
end Waymark
