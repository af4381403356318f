import Waymark.Double
/-!
# Json values

A whole number and a double are different values even when they are equal as numbers. The members
of an object are in the order of their names, and no name occurs twice.
-/

namespace Waymark

inductive Number where
  | integer (value : Int)
  | double (value : Double)
  deriving DecidableEq

namespace Number

def same : Number → Number → Bool
  | .integer a, .integer b => a = b
  | .double a, .double b => a.same b
  | _, _ => false

end Number

inductive Json where
  | null
  | boolean (value : Bool)
  | number (value : Number)
  | string (value : String)
  | array (items : List Json)
  | object (members : List (String × Json))

namespace Json

def integer (value : Int) : Json :=
  .number (.integer value)

mutual

/-- Equality of values, where the two zeros among the doubles are equal. -/
def same : Json → Json → Bool
  | .null, .null => true
  | .boolean a, .boolean b => a = b
  | .number a, .number b => a.same b
  | .string a, .string b => a = b
  | .array a, .array b => sameItems a b
  | .object a, .object b => sameMembers a b
  | _, _ => false

def sameItems : List Json → List Json → Bool
  | [], [] => true
  | a :: as, b :: bs => same a b && sameItems as bs
  | _, _ => false

def sameMembers : List (String × Json) → List (String × Json) → Bool
  | [], [] => true
  | (a, x) :: as, (b, y) :: bs => a = b && same x y && sameMembers as bs
  | _, _ => false

end

def insertMember {α : Type} (name : String) (value : α) : List (String × α) → List (String × α)
  | [] => [(name, value)]
  | (other, old) :: rest =>
      if name < other then (name, value) :: (other, old) :: rest
      else if name = other then (name, value) :: rest
      else (other, old) :: insertMember name value rest

/-- Members in the order of their names; of several with one name the last counts. -/
def orderMembers {α : Type} (members : List (String × α)) : List (String × α) :=
  members.foldl (fun ordered member => insertMember member.1 member.2 ordered) []

def ofMembers (members : List (String × Json)) : Json :=
  .object (orderMembers members)

mutual

def depth : Json → Nat
  | .array items => depthItems items + 1
  | .object members => depthMembers members + 1
  | _ => 0

def depthItems : List Json → Nat
  | [] => 0
  | item :: items => max (depth item) (depthItems items)

def depthMembers : List (String × Json) → Nat
  | [] => 0
  | (_, value) :: members => max (depth value) (depthMembers members)

end

end Json
end Waymark
