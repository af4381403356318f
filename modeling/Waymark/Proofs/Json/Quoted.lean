import Waymark.Json.Print
import Waymark.Json.Token
/-!
# Written strings

A string reads back from its quoted form, whatever characters it has.
-/

namespace Waymark.Json

abbrev glyphs (text : List Char) : List Glyph :=
  text.map .char

theorem hexValue?_hexDigit {value : Nat} (small : value < 16) :
    hexValue? (.char (hexDigit value)) = some value := by
  have all : ∀ v < 16, hexValue? (.char (hexDigit v)) = some v := by decide
  exact all value small

theorem hexCode?_hexDigits {code : Nat} (small : code < 32) :
    hexCode? (.char '0') (.char '0') (.char (hexDigit (code / 16))) (.char (hexDigit (code % 16))) =
      some code := by
  have zero : hexValue? (.char '0') = some 0 := by decide
  have high := hexValue?_hexDigit (show code / 16 < 16 by omega)
  have low := hexValue?_hexDigit (show code % 16 < 16 by omega)
  simp only [hexCode?, zero, high, low, Option.bind_eq_bind, Option.bind_some]
  congr 1
  omega

namespace Piece

theorem ofCode_small {c : Char} (small : c.toNat < 32) : ofCode c.toNat = .char c := by
  have notHigh : (0xD800 ≤ c.toNat && c.toNat < 0xDC00) = false := by simp; omega
  have notLow : (0xDC00 ≤ c.toNat && c.toNat < 0xE000) = false := by simp; omega
  simp only [ofCode, notHigh, notLow, Char.ofNat_toNat]
  rfl

theorem text?_map_char (text : List Char) : text? (text.map .char) = some text := by
  induction text with
  | nil => rfl
  | cons c rest ih => simp [text?, ih]

end Piece

theorem scanString_plain {c : Char} (notQuote : c ≠ '"') (notBackslash : c ≠ '\\')
    (notControl : ¬c.toNat < 32) (rest : List Glyph) :
    scanString (.char c :: rest) = (scanString rest).push (.char c) := by
  rw [scanString.eq_def]
  simp only [notQuote, notBackslash, notControl, if_false]

theorem scanString_unescaped {letter c : Char} (notCode : letter ≠ 'u')
    (known : unescaped? letter = some c) (rest : List Glyph) :
    scanString (.char '\\' :: .char letter :: rest) = (scanString rest).push (.char c) := by
  rw [scanString.eq_def]
  simp [notCode, known]

theorem scanString_code {c : Char} (small : c.toNat < 32) (rest : List Glyph) :
    scanString (.char '\\' :: .char 'u' :: .char '0' :: .char '0' ::
      .char (hexDigit (c.toNat / 16)) :: .char (hexDigit (c.toNat % 16)) :: rest) =
        (scanString rest).push (.char c) := by
  rw [scanString.eq_def]
  simp [hexCode?_hexDigits small, Piece.ofCode_small small]

theorem scanString_escape (c : Char) (rest : List Glyph) :
    scanString (glyphs (escape c) ++ rest) = (scanString rest).push (.char c) := by
  unfold escape
  -- the characters that have a letter of their own
  iterate 7
    split
    · subst c
      exact scanString_unescaped (by decide) rfl rest
  split
  · rename_i small
    exact scanString_code small rest
  · exact scanString_plain ‹_› ‹_› ‹_› rest

theorem scanString_escaped (text : List Char) (rest : List Glyph) :
    scanString (glyphs (text.flatMap escape) ++ .char '"' :: rest) =
      .closed (text.map .char) rest := by
  induction text with
  | nil =>
      rw [List.flatMap_nil, scanString.eq_def]
      rfl
  | cons c others ih =>
      rw [List.flatMap_cons, glyphs, List.map_append, List.append_assoc]
      rw [scanString_escape, ih]
      rfl

theorem Token.scanQuoted_escaped (text : String) (rest : List Glyph) :
    scanQuoted (glyphs (text.toList.flatMap escape) ++ .char '"' :: rest) =
      .ok (.string text, rest) := by
  rw [scanQuoted, scanString_escaped]
  simp [ofPieces, Piece.text?_map_char]

end Waymark.Json
