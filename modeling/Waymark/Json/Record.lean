import Waymark.Json.Decode
/-!
# Records

A record is written as an object, in any order and with members that it does not know, or as an
array of its fields in order. The fields found so far are kept in a draft.
-/

namespace Waymark.Json

/-- A field that may lack is not missed at the end of an array. -/
structure Field (δ : Type) where
  name : String
  mayLack : Bool
  isSet : δ → Bool
  store : Tree → δ → Except Fault δ

def Field.of {δ α : Type} (name : String) (mayLack : Bool) (decoder : Decoder α)
    (find? : δ → Option α) (store : δ → α → δ) : Field δ :=
  ⟨name, mayLack, fun draft => (find? draft).isSome,
    fun tree draft => (decoder tree).map (store draft)⟩

namespace Decoder

def fieldsByName {δ : Type} (fields : List (Field δ)) (draft : δ) : Members → Except Fault δ
  | .close => .ok draft
  | .fault fault => .error fault.read
  | .member key value rest => do
      let key ← name key
      match fields.find? (·.name = key) with
      | none => skip value; fieldsByName fields draft rest
      | some field =>
          if field.isSet draft then .error .mismatched
          else fieldsByName fields (← field.store value draft) rest

def fieldsInOrder {δ : Type} (draft : δ) : List (Field δ) → Items → Except Fault δ
  | _, .fault fault => .error fault
  | [], .close => .ok draft
  | [], .item _ _ => .error .malformed
  | field :: fields, .close =>
      if field.mayLack then fieldsInOrder draft fields .close else .error .mismatched
  | field :: fields, .item value rest => do
      fieldsInOrder (← field.store value draft) fields rest

def fieldsOf {δ : Type} (fields : List (Field δ)) (start : δ) : Decoder δ
  | .object content => fieldsByName fields start content
  | .array content => fieldsInOrder start fields content
  | .deep _ => .error .malformed
  | tree => .error (refusal tree)

def record {δ α : Type} (fields : List (Field δ)) (start : δ) (finish? : δ → Option α) :
    Decoder α := fun tree => do
  match finish? (← fieldsOf fields start tree) with
  | some value => .ok value
  | none => .error .mismatched

end Decoder

def ofOptional (name : String) : Option String → List (String × Json)
  | some value => [(name, .string value)]
  | none => []

end Waymark.Json
