import Waymark.Json.Decode
import Waymark.Text.Case
/-!
# Property bags

A bag holds values under names that are told apart without regard to letter case. It is in the
order of the lower-cased names, and a property keeps the spelling that it came in with.
-/

namespace Waymark

structure Property where
  name : String
  value : Json

def Property.key (property : Property) : String :=
  Text.lower property.name

structure Bag where
  properties : List Property
  ordered : properties.Pairwise fun a b => a.key < b.key
  named : ∀ property ∈ properties, property.name ≠ ""

namespace Bag

def empty : Bag :=
  ⟨[], .nil, by simp⟩

def size (bag : Bag) : Nat :=
  bag.properties.length

def names (bag : Bag) : List String :=
  bag.properties.map Property.name

def members (bag : Bag) : List (String × Json) :=
  bag.properties.map fun property => (property.name, property.value)

def findKey? (bag : Bag) (key : String) : Option Property :=
  bag.properties.find? fun property => property.key = key

def find? (bag : Bag) (name : String) : Option Property :=
  bag.findKey? (Text.lower name)

def value? (bag : Bag) (name : String) : Option Json :=
  (bag.find? name).map Property.value

def contains (bag : Bag) (name : String) : Bool :=
  (bag.find? name).isSome

/-- Puts a value in its place; a property of the name keeps its spelling. -/
def put (name : String) (value : Json) : List Property → List Property
  | [] => [⟨name, value⟩]
  | property :: rest =>
      if Text.lower name < property.key then ⟨name, value⟩ :: property :: rest
      else if Text.lower name = property.key then { property with value } :: rest
      else property :: put name value rest

theorem key_of_mem_put {name : String} {value : Json} {property : Property}
    {properties : List Property} (member : property ∈ put name value properties) :
    property.key = Text.lower name ∨ ∃ other ∈ properties, property.key = other.key := by
  induction properties with
  | nil =>
      simp only [put, List.mem_singleton] at member
      exact .inl (by rw [member]; rfl)
  | cons first rest ih =>
      unfold put at member
      split at member
      · rcases List.mem_cons.mp member with new | old
        · exact .inl (by rw [new]; rfl)
        · exact .inr ⟨property, old, rfl⟩
      split at member
      · rcases List.mem_cons.mp member with new | old
        · exact .inr ⟨first, List.mem_cons_self, by rw [new]; rfl⟩
        · exact .inr ⟨property, List.mem_cons_of_mem _ old, rfl⟩
      · rcases List.mem_cons.mp member with same | old
        · exact .inr ⟨property, by rw [same]; exact List.mem_cons_self, rfl⟩
        · rcases ih old with new | ⟨other, there, equal⟩
          · exact .inl new
          · exact .inr ⟨other, List.mem_cons_of_mem _ there, equal⟩

theorem ordered_put {name : String} {value : Json} {properties : List Property}
    (ordered : properties.Pairwise fun a b => a.key < b.key) :
    (put name value properties).Pairwise fun a b => a.key < b.key := by
  induction properties with
  | nil => simp [put]
  | cons first rest ih =>
      have after := List.pairwise_cons.mp ordered
      unfold put
      split
      · rename_i before
        refine List.pairwise_cons.mpr ⟨fun other there => ?_, ordered⟩
        rcases List.mem_cons.mp there with same | old
        · rw [same]; exact before
        · exact String.lt_trans before (after.1 other old)
      split
      · exact List.pairwise_cons.mpr ⟨after.1, after.2⟩
      · rename_i notBefore notSame
        refine List.pairwise_cons.mpr ⟨fun other there => ?_, ih after.2⟩
        rcases key_of_mem_put there with new | ⟨old, member, equal⟩
        · rw [new]
          refine String.not_le.mp fun notAfter => notSame ?_
          exact String.le_antisymm notAfter (String.not_lt.mp notBefore)
        · rw [equal]; exact after.1 old member

theorem named_put {name : String} {value : Json} {properties : List Property} (nonempty : name ≠ "")
    (named : ∀ property ∈ properties, property.name ≠ "") :
    ∀ property ∈ put name value properties, property.name ≠ "" := by
  induction properties with
  | nil => simpa [put] using nonempty
  | cons first rest ih =>
      unfold put
      grind

/-- Sets a value and tells whether that changes the bag. The empty name is never set. -/
def set (bag : Bag) (name : String) (value : Json) : Bag × Bool :=
  if nonempty : name = "" then (bag, false)
  else if (bag.value? name).any (·.same value) then (bag, false)
  else
    (⟨put name value bag.properties, ordered_put bag.ordered, named_put nonempty bag.named⟩, true)

def remove (bag : Bag) (name : String) : Bag × Bool :=
  (⟨bag.properties.filter fun property => property.key ≠ Text.lower name,
      bag.ordered.filter _,
      fun property member => bag.named property (List.mem_filter.mp member).1⟩,
    bag.contains name)

def setAll (bag : Bag) (members : List (String × Json)) : Bag :=
  members.foldl (fun bag member => (bag.set member.1 member.2).1) bag

/-- The bag of an object whose members are in any order: they are set in the order of their
names, and of several with exactly one name only the last. -/
def ofMembers (members : List (String × Json)) : Bag :=
  empty.setAll (Json.orderMembers members)

def same (a b : Bag) : Bool :=
  Json.sameMembers a.members b.members

def missingIn (other bag : Bag) : List String :=
  (bag.properties.filter fun property => (other.findKey? property.key).isNone).map Property.name

def changedFrom (old bag : Bag) : List String :=
  (bag.properties.filter fun property =>
    !(old.findKey? property.key).any (·.value.same property.value)).map Property.name

def changes (old new : Bag) : List String :=
  missingIn new old ++ changedFrom old new

/-- Takes over another bag, and gives the names that changed. -/
def replaceWith (bag other : Bag) : Bag × List String :=
  (other, bag.changes other)

def toJson (bag : Bag) : Json :=
  .object bag.members

def decoder : Json.Decoder Bag := fun tree =>
  (Json.Decoder.mapping Json.Decoder.json tree).map ofMembers

def ofBytes (bytes : ByteArray) : Except Json.Fault Bag :=
  Json.decodeBytes decoder bytes

def get? {α : Type} (bag : Bag) (decoder : Json.Decoder α) (name : String) : Option α :=
  (bag.value? name).bind (Json.convert? decoder)

end Bag
end Waymark
