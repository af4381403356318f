import Waymark.Text.Case
import Waymark.Text.SpelledTable
/-!
# Quoted text

Text between quotation marks, as messages show it: these marks and backslashes are escaped, but
no apostrophes. What does not print, or joins the character before it, is spelled out by its code.
-/

namespace Waymark.Text

def isSpelled (c : Char) : Bool :=
  c.toNat < 32 || (127 ≤ c.toNat && inRanges spelledRanges c.toNat)

/-- A character by its code: `\u{200b}`. -/
def spelled (c : Char) : List Char :=
  ['\\', 'u', '\x7b'] ++ Nat.toDigits 16 c.toNat ++ ['\x7d']

def quotedChar (c : Char) : List Char :=
  if c = '\x00' then ['\\', '0']
  else if c = '\t' then ['\\', 't']
  else if c = '\r' then ['\\', 'r']
  else if c = '\n' then ['\\', 'n']
  else if c = '"' || c = '\\' then ['\\', c]
  else if isSpelled c then spelled c
  else [c]

def quoted (text : String) : String :=
  String.ofList ('"' :: text.toList.flatMap quotedChar ++ ['"'])

end Waymark.Text
