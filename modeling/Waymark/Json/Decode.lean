import Waymark.Json.Tree
import Waymark.Text.Blank
/-!
# Decoding

A decoder takes a value of one kind from a tree, and reports the first fault that it meets from
left to right. What is skipped need not be readable, only well formed.
-/

namespace Waymark.Json

abbrev Decoder (α : Type) :=
  Tree → Except Fault α

/-- The fault of a value of another kind. The value itself is read before it is refused. -/
def refusal : Tree → Fault
  | .unreadable => .malformed
  | .broken fault => fault.read
  | _ => .mismatched

namespace Decoder

mutual

def skip : Tree → Except Fault Unit
  | .broken fault => .error fault.skipped
  | .array items => skipItems items
  | .object members => skipMembers members
  | .deep container => skip container
  | _ => .ok ()

def skipItems : Items → Except Fault Unit
  | .close => .ok ()
  | .fault fault => .error fault
  | .item value rest => do skip value; skipItems rest

def skipMembers : Members → Except Fault Unit
  | .close => .ok ()
  | .fault fault => .error fault.skipped
  | .member _ value rest => do skip value; skipMembers rest

end

def boolean : Decoder Bool
  | .boolean value => .ok value
  | tree => .error (refusal tree)

def integer (low high : Int) : Decoder Int
  | .number (.integer value) =>
      if low ≤ value && value < high then .ok value else .error .mismatched
  | tree => .error (refusal tree)

def double : Decoder Double
  | .number (.integer value) => .ok ((Double.ofInt? value).getD (.zero false))
  | .number (.double value) => .ok value
  | tree => .error (refusal tree)

def text : Decoder String
  | .string value => .ok value
  | tree => .error (refusal tree)

def optional {α : Type} (decoder : Decoder α) : Decoder (Option α)
  | .null => .ok none
  | tree => (decoder tree).map some

def items {α : Type} (decoder : Decoder α) : Items → Except Fault (List α)
  | .close => .ok []
  | .fault fault => .error fault
  | .item value rest => do return (← decoder value) :: (← items decoder rest)

def list {α : Type} (decoder : Decoder α) : Decoder (List α)
  | .array content => items decoder content
  | .deep (.array _) => .error .malformed
  | tree => .error (refusal tree)

def name : Option String → Except Fault String
  | some name => .ok name
  | none => .error .malformed

def members {α : Type} (decoder : Decoder α) : Members → Except Fault (List (String × α))
  | .close => .ok []
  | .fault fault => .error fault.read
  | .member key value rest => do
      let key ← name key
      return (key, ← decoder value) :: (← members decoder rest)

def mapping {α : Type} (decoder : Decoder α) : Decoder (List (String × α))
  | .object content => members decoder content
  | .deep (.object _) => .error .malformed
  | tree => .error (refusal tree)

mutual

def json : Tree → Except Fault Json
  | .null => .ok .null
  | .boolean value => .ok (.boolean value)
  | .number value => .ok (.number value)
  | .string value => .ok (.string value)
  | .unreadable => .error .malformed
  | .broken fault => .error fault.read
  | .array content => (jsonItems content).map .array
  | .object content => (jsonMembers content).map .ofMembers
  | .deep _ => .error .malformed

def jsonItems : Items → Except Fault (List Json)
  | .close => .ok []
  | .fault fault => .error fault
  | .item value rest => do return (← json value) :: (← jsonItems rest)

def jsonMembers : Members → Except Fault (List (String × Json))
  | .close => .ok []
  | .fault fault => .error fault.read
  | .member key value rest => do
      let key ← name key
      return (key, ← json value) :: (← jsonMembers rest)

end

end Decoder

def decodeGlyphs {α : Type} (decoder : Decoder α) (text : List Glyph) : Except Fault α := do
  let (tree, more) := Tree.ofGlyphs text
  let value ← decoder tree
  if more then .error .malformed else .ok value

def decode {α : Type} (decoder : Decoder α) (text : String) : Except Fault α :=
  decodeGlyphs decoder (Glyph.ofString text)

def decodeBytes {α : Type} (decoder : Decoder α) (bytes : ByteArray) : Except Fault α :=
  decodeGlyphs decoder (Glyph.ofBytes bytes)

/-- Takes a value from another. A string may also hold the document of the value. -/
def convert? {α : Type} (decoder : Decoder α) (value : Json) : Option α :=
  match decoder (Tree.ofJson value) with
  | .ok value => some value
  | .error _ =>
      match value with
      | .string text => (decode decoder (Text.trim text)).toOption
      | _ => none

end Waymark.Json
