import Waymark.Calendar.Written
import Waymark.Json.Record
import Waymark.Trail.Entry
/-!
# Written entries

An entry is written as an object; its sequence is not written, and its icon only if it has one.
-/

namespace Waymark

namespace Json

def Decoder.instant : Decoder Instant := fun tree => do
  match Instant.ofText? (← text tree) with
  | some instant => .ok instant
  | none => .error .mismatched

end Json

namespace Entry

open Json

def members (entry : Entry) : List (String × Json) :=
  [("locationKey", .string entry.key), ("displayName", .string entry.name)] ++
    ofOptional "iconPath" entry.icon ++ [("lastVisitedTime", .string entry.visited.text)]

structure Draft where
  key : Option String
  name : Option String
  icon : Option (Option String)
  visited : Option Instant

def fields : List (Json.Field Draft) :=
  [.of "locationKey" false Decoder.text Draft.key fun draft key => { draft with key := some key },
   .of "displayName" true Decoder.text Draft.name
     fun draft name => { draft with name := some name },
   .of "iconPath" true (Decoder.optional Decoder.text) Draft.icon
     fun draft icon => { draft with icon := some icon },
   .of "lastVisitedTime" true Decoder.instant Draft.visited
     fun draft visited => { draft with visited := some visited }]

def ofDraft? (draft : Draft) : Option Entry := do
  some ⟨← draft.key, draft.name.getD "", draft.icon.getD none, draft.visited.getD .epoch, 0⟩

def decoder : Decoder Entry :=
  .record fields ⟨none, none, none, none⟩ ofDraft?

end Entry
end Waymark
