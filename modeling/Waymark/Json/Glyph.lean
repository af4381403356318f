/-!
# Document bytes as text

Bytes are read as UTF-8. A byte that begins no character is kept as a stray, because only the
place where it stands decides whether it matters.
-/

namespace Waymark.Json

inductive Glyph where
  | char (c : Char)
  | stray
  deriving DecidableEq

namespace Glyph

def size : Glyph → Nat
  | .char c => c.utf8Size
  | .stray => 1

def decodeFrom (bytes : ByteArray) (position : Nat) : List Glyph :=
  if _inside : position < bytes.size then
    match bytes.utf8DecodeChar? position with
    | some c => .char c :: decodeFrom bytes (position + c.utf8Size)
    | none => .stray :: decodeFrom bytes (position + 1)
  else []
termination_by bytes.size - position
decreasing_by
  · have := c.utf8Size_pos
    omega
  · omega

def ofString (text : String) : List Glyph :=
  text.toList.map .char

def ofBytes (bytes : ByteArray) : List Glyph :=
  match String.fromUTF8? bytes with
  | some text => ofString text
  | none => decodeFrom bytes 0

theorem ofBytes_toUTF8 (text : String) : ofBytes text.toUTF8 = ofString text := by
  have valid : text.toUTF8.IsValidUTF8 := text.isValidUTF8
  simp only [ofBytes, String.fromUTF8?, valid, dif_pos]
  rfl

end Glyph
end Waymark.Json
