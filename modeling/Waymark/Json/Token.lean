import Waymark.Json.Token.Quoted
import Waymark.Json.Token.Numeral
/-!
# Tokens

A document is cut into tokens from left to right, up to the first that is broken. A token that is
well formed but stands for no value is an error only where its value is asked for.
-/

namespace Waymark.Json

inductive Token where
  | openArray
  | closeArray
  | openObject
  | closeObject
  | comma
  | colon
  | null
  | boolean (value : Bool)
  | number (value : Number)
  | string (value : String)
  | unreadableNumber
  | unreadableString
  | broken (fault : Break)
  | brokenString (fault : Break)
  deriving DecidableEq

def isSpace (glyph : Glyph) : Bool :=
  glyph = .char ' ' || glyph = .char '\n' || glyph = .char '\t' || glyph = .char '\r'

def scanWord : List Char → List Glyph → Except Break (List Glyph)
  | [], text => .ok text
  | _ :: _, [] => .error (.both .truncated)
  | letter :: letters, glyph :: text =>
      if glyph = .char letter then scanWord letters text else .error (.both .malformed)

namespace Token

def ofNumeral (numeral : Numeral) : Token :=
  match numeral.value? with
  | some value => .number value
  | none => .unreadableNumber

def ofPieces (pieces : List Piece) : Token :=
  match Piece.text? pieces with
  | some text => .string (String.ofList text)
  | none => .unreadableString

def ofBrokenString (pieces : List Piece) (fault : Fault) : Token :=
  .brokenString ⟨if Piece.paired pieces then fault else .malformed, fault⟩

def scanNumber (negative : Bool) (text : List Glyph) : Except Token (Token × List Glyph) :=
  match scanNumeral negative text with
  | .ok (numeral, rest) => .ok (ofNumeral numeral, rest)
  | .error fault => .error (.broken fault)

def scanQuoted (text : List Glyph) : Except Token (Token × List Glyph) :=
  match scanString text with
  | .closed pieces rest => .ok (ofPieces pieces, rest)
  | .broken pieces fault => .error (ofBrokenString pieces fault)

def scanLiteral (token : Token) (letters : List Char) (text : List Glyph) :
    Except Token (Token × List Glyph) :=
  match scanWord letters text with
  | .ok rest => .ok (token, rest)
  | .error fault => .error (.broken fault)

def punctuation? (c : Char) : Option Token :=
  if c = '[' then some .openArray
  else if c = ']' then some .closeArray
  else if c = '\x7b' then some .openObject
  else if c = '\x7d' then some .closeObject
  else if c = ',' then some .comma
  else if c = ':' then some .colon
  else none

/-- The token that begins with a character; an error is the last token of the document. -/
def scan (c : Char) (text : List Glyph) : Except Token (Token × List Glyph) :=
  match punctuation? c with
  | some token => .ok (token, text)
  | none =>
      if c = '"' then scanQuoted text
      else if c = 'n' then scanLiteral .null ['u', 'l', 'l'] text
      else if c = 't' then scanLiteral (.boolean true) ['r', 'u', 'e'] text
      else if c = 'f' then scanLiteral (.boolean false) ['a', 'l', 's', 'e'] text
      else if c = '-' then scanNumber true text
      else if c.isDigit then scanNumber false (.char c :: text)
      else .error (.broken (.both .malformed))

theorem scanWord_length {letters : List Char} {text rest : List Glyph}
    (scanned : scanWord letters text = .ok rest) : rest.length ≤ text.length := by
  fun_induction scanWord letters text <;> grind

theorem scanQuoted_length {text rest : List Glyph} {token : Token}
    (scanned : scanQuoted text = .ok (token, rest)) : rest.length < text.length := by
  unfold scanQuoted at scanned
  split at scanned
  · cases scanned
    exact scanString_length ‹_›
  · cases scanned

theorem scanLiteral_length {letters : List Char} {text rest : List Glyph} {literal token : Token}
    (scanned : scanLiteral literal letters text = .ok (token, rest)) :
    rest.length ≤ text.length := by
  unfold scanLiteral at scanned
  split at scanned
  · cases scanned
    exact scanWord_length ‹_›
  · cases scanned

theorem scanNumber_length {negative : Bool} {text rest : List Glyph} {token : Token}
    (scanned : scanNumber negative text = .ok (token, rest)) : rest.length < text.length := by
  unfold scanNumber at scanned
  split at scanned
  · cases scanned
    exact scanNumeral_length ‹_›
  · cases scanned

theorem scan_length {c : Char} {text rest : List Glyph} {token : Token}
    (scanned : scan c text = .ok (token, rest)) : rest.length ≤ text.length := by
  unfold scan at scanned
  split at scanned
  · cases scanned
    exact Nat.le_refl _
  repeat' split at scanned
  · exact Nat.le_of_lt (scanQuoted_length scanned)
  · exact scanLiteral_length scanned
  · exact scanLiteral_length scanned
  · exact scanLiteral_length scanned
  · exact Nat.le_of_lt (scanNumber_length scanned)
  · exact Nat.le_of_lt_succ (scanNumber_length scanned)
  · cases scanned

end Token

def tokens : List Glyph → List Token
  | [] => []
  | .stray :: _ => [.broken (.both .malformed)]
  | .char c :: text =>
      if isSpace (.char c) then tokens text
      else
        match _scanned : Token.scan c text with
        | .error token => [token]
        | .ok (token, rest) => token :: tokens rest
termination_by text => text.length
decreasing_by
  · simp
  · have := Token.scan_length ‹_›
    simp only [List.length_cons]
    omega

end Waymark.Json
