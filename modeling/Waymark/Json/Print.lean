import Waymark.Double.Shortest
import Waymark.Json
import Waymark.Text.Quoted
/-!
# Writing Json

The compact form has no blanks. The indented form puts each item on a line of its own, two blanks
deeper than what holds it, and one blank after the colon of a member.
-/

namespace Waymark.Json

def hexDigit (value : Nat) : Char :=
  (Nat.digitChar value)

def escape (c : Char) : List Char :=
  if c = '"' then ['\\', '"']
  else if c = '\\' then ['\\', '\\']
  else if c = '\x08' then ['\\', 'b']
  else if c = '\x0c' then ['\\', 'f']
  else if c = '\n' then ['\\', 'n']
  else if c = '\r' then ['\\', 'r']
  else if c = '\t' then ['\\', 't']
  else if c.toNat < 32 then
    ['\\', 'u', '0', '0', hexDigit (c.toNat / 16), hexDigit (c.toNat % 16)]
  else [c]

def stringText (text : String) : List Char :=
  '"' :: text.toList.flatMap escape ++ ['"']

def integerText (value : Int) : List Char :=
  let digits := Nat.toDigits 10 value.natAbs
  if value < 0 then '-' :: digits else digits

def numberText : Number → List Char
  | .integer value => integerText value
  | .double value => value.text

structure Spacing where
  lineStart : Nat → List Char
  afterColon : List Char

def Spacing.compact : Spacing :=
  ⟨fun _ => [], []⟩

def Spacing.indented : Spacing :=
  ⟨fun depth => '\n' :: List.replicate (2 * depth) ' ', [' ']⟩

def bracket (spacing : Spacing) (depth : Nat) (opening closing : Char) (isEmpty : Bool)
    (content : List Char) : List Char :=
  if isEmpty then [opening, closing]
  else opening :: content ++ spacing.lineStart depth ++ [closing]

def comma (isFirst : Bool) : List Char :=
  if isFirst then [] else [',']

mutual

def write (spacing : Spacing) (depth : Nat) : Json → List Char
  | .null => "null".toList
  | .boolean true => "true".toList
  | .boolean false => "false".toList
  | .number value => numberText value
  | .string value => stringText value
  | .array items =>
      bracket spacing depth '[' ']' items.isEmpty (writeItems spacing (depth + 1) true items)
  | .object members =>
      bracket spacing depth '\x7b' '\x7d' members.isEmpty
        (writeMembers spacing (depth + 1) true members)

def writeItems (spacing : Spacing) (depth : Nat) (isFirst : Bool) : List Json → List Char
  | [] => []
  | item :: items =>
      comma isFirst ++ spacing.lineStart depth ++ write spacing depth item ++
        writeItems spacing depth false items

def writeMembers (spacing : Spacing) (depth : Nat) (isFirst : Bool) :
    List (String × Json) → List Char
  | [] => []
  | (name, value) :: members =>
      comma isFirst ++ spacing.lineStart depth ++ stringText name ++ ':' :: spacing.afterColon ++
        write spacing depth value ++ writeMembers spacing depth false members

end

def compact (value : Json) : String :=
  String.ofList (write .compact 0 value)

def indented (value : Json) : String :=
  String.ofList (write .indented 0 value)

end Waymark.Json
