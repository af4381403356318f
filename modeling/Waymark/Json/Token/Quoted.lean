import Waymark.Json.Fault
import Waymark.Json.Glyph
/-!
# Quoted strings in documents

A string is read into pieces up to its closing quotation mark. Whether the pieces form a text is a
question of its own, which is not asked where a value is skipped.
-/

namespace Waymark.Json

inductive Piece where
  | char (c : Char)
  | high (code : Nat)
  | low (code : Nat)
  | stray
  deriving DecidableEq

namespace Piece

def ofCode (code : Nat) : Piece :=
  if 0xD800 ≤ code && code < 0xDC00 then .high (code - 0xD800)
  else if 0xDC00 ≤ code && code < 0xE000 then .low (code - 0xDC00)
  else .char (Char.ofNat code)

/-- The text of a closed string; strays and halves without their other half have none. -/
def text? : List Piece → Option (List Char)
  | [] => some []
  | .char c :: pieces => (text? pieces).map (c :: ·)
  | .high upper :: .low lower :: pieces =>
      (text? pieces).map (Char.ofNat (0x10000 + upper * 0x400 + lower) :: ·)
  | _ => none

/-- Whether the halves form pairs, except that the last one may still wait for its other half. -/
def paired : List Piece → Bool
  | [] => true
  | [.high _] => true
  | .high _ :: .low _ :: pieces => paired pieces
  | .high _ :: _ => false
  | .low _ :: _ => false
  | .char _ :: pieces => paired pieces
  | .stray :: pieces => paired pieces

end Piece

inductive Scanned where
  | closed (pieces : List Piece) (rest : List Glyph)
  | broken (pieces : List Piece) (fault : Fault)

namespace Scanned

def push (piece : Piece) : Scanned → Scanned
  | .closed pieces rest => .closed (piece :: pieces) rest
  | .broken pieces fault => .broken (piece :: pieces) fault

theorem push_closed {piece : Piece} {scanned : Scanned} {pieces : List Piece} {rest : List Glyph}
    (closed : scanned.push piece = .closed pieces rest) :
    ∃ others, scanned = .closed others rest := by
  cases scanned with
  | closed others other =>
      cases closed
      exact ⟨others, rfl⟩
  | broken others fault => cases closed

end Scanned

def unescaped? (c : Char) : Option Char :=
  if c = '"' || c = '\\' || c = '/' then some c
  else if c = 'b' then some '\x08'
  else if c = 'f' then some '\x0c'
  else if c = 'n' then some '\n'
  else if c = 'r' then some '\r'
  else if c = 't' then some '\t'
  else none

def hexValue? : Glyph → Option Nat
  | .stray => none
  | .char c =>
      if '0' ≤ c && c ≤ '9' then some (c.toNat - '0'.toNat)
      else if 'a' ≤ c && c ≤ 'f' then some (c.toNat - 'a'.toNat + 10)
      else if 'A' ≤ c && c ≤ 'F' then some (c.toNat - 'A'.toNat + 10)
      else none

def hexCode? (a b c d : Glyph) : Option Nat := do
  some ((((← hexValue? a) * 16 + (← hexValue? b)) * 16 + (← hexValue? c)) * 16 + (← hexValue? d))

def shortCode (rest : List Glyph) : Fault :=
  if rest.foldl (fun size glyph => size + glyph.size) 0 < 4 then .truncated else .malformed

def scanString : List Glyph → Scanned
  | [] => .broken [] .truncated
  | .stray :: rest => (scanString rest).push .stray
  | .char c :: rest =>
      if c = '"' then .closed [] rest
      else if c = '\\' then
        match rest with
        | [] => .broken [] .truncated
        | .stray :: _ => .broken [] .malformed
        | .char e :: rest =>
            if e = 'u' then
              match rest with
              | a :: b :: c :: d :: rest =>
                  match hexCode? a b c d with
                  | some code => (scanString rest).push (.ofCode code)
                  | none => .broken [] .malformed
              | rest => .broken [] (shortCode rest)
            else
              match unescaped? e with
              | some e => (scanString rest).push (.char e)
              | none => .broken [] .malformed
      else if c.toNat < 32 then .broken [] .malformed
      else (scanString rest).push (.char c)

theorem scanString_length {text rest : List Glyph} {pieces : List Piece}
    (closed : scanString text = .closed pieces rest) : rest.length < text.length := by
  fun_induction scanString text generalizing pieces <;> grind [Scanned.push_closed]

end Waymark.Json
