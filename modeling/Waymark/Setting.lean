import Waymark.Bag
import Waymark.Failure
import Waymark.Text.Integer
/-!
# Declared settings

A declaration gives a setting a kind, a default and perhaps a range. What a document holds under
the name counts only as far as it fits the kind; a number is moved into its range.
-/

namespace Waymark

inductive Kind where
  | yesNo (default : Bool)
  | number (default low high : Int)
  | text (default : Option String)
  deriving DecidableEq

structure Declaration where
  name : String
  kind : Kind
  deriving DecidableEq

structure Row where
  name : String
  value : Json
  declaration : Option Declaration
  isDefault : Bool

def yesNo? (text : String) : Option Bool :=
  let word := Text.lowerAscii text
  if ["true", "1", "yes", "on"].contains word then some true
  else if ["false", "0", "no", "off"].contains word then some false
  else none

namespace Json.Decoder

def int64 : Decoder Int :=
  integer (-Text.signedLimit) Text.signedLimit

def count64 : Decoder Int :=
  integer 0 Text.countLimit

def octet : Decoder Int :=
  integer 0 256

end Json.Decoder

namespace Declaration

open Json

def defaultValue (declaration : Declaration) : Json :=
  match declaration.kind with
  | .yesNo default => .boolean default
  | .number default _ _ => .integer default
  | .text (some default) => .string default
  | .text none => .null

def resolve (declaration : Declaration) (bag : Bag) : Json :=
  match declaration.kind with
  | .yesNo default => .boolean ((bag.get? Decoder.boolean declaration.name).getD default)
  | .number default low high =>
      .integer (Text.clamp low high ((bag.get? Decoder.int64 declaration.name).getD default))
  | .text _ =>
      match bag.get? Decoder.text declaration.name with
      | some text => .string text
      | none => declaration.defaultValue

def parse (declaration : Declaration) (raw : String) : Except Failure Json :=
  let invalid := Failure.invalidValue declaration.name raw
  match declaration.kind with
  | .yesNo _ =>
      match yesNo? (Text.trim raw) with
      | some value => .ok (.boolean value)
      | none => .error invalid
  | .number _ low high =>
      match Text.int64? (Text.trim raw) with
      | some value => .ok (.integer (Text.clamp low high value))
      | none => .error invalid
  | .text _ => .ok (.string raw)

end Declaration

abbrev Schema :=
  List Declaration

namespace Schema

def declared? (schema : Schema) (name : String) : Option Declaration :=
  schema.find? fun declaration => Text.sameButCase declaration.name name

def get? (schema : Schema) (bag : Bag) (name : String) : Option Json :=
  match schema.declared? name with
  | some declaration => some (declaration.resolve bag)
  | none => bag.value? name

def rows (schema : Schema) (bag : Bag) : List Row :=
  (schema.map fun declaration =>
    ⟨declaration.name, declaration.resolve bag, some declaration,
      !bag.contains declaration.name⟩) ++
  ((bag.properties.filter fun property => (schema.declared? property.name).isNone).map
    fun property => ⟨property.name, property.value, none, false⟩)

/-- The value of a setting that is not declared: the text as a document, if it is one. -/
def undeclaredValue (raw : String) : Json :=
  match Json.decode Json.Decoder.json raw with
  | .ok value => value
  | .error _ => .string raw

/-- The name and the value that a text sets. A blank name is never set. -/
def assignment (schema : Schema) (name raw : String) : Except Failure (String × Json) :=
  if (Text.trim name).isEmpty then .error (.invalidValue name raw)
  else
    match schema.declared? name with
    | some declaration => (declaration.parse raw).map fun value => (declaration.name, value)
    | none => .ok (name, undeclaredValue raw)

end Schema
end Waymark
