import Waymark.Json.Record
/-!
# Favorites

A favorite is a pinned location.
-/

namespace Waymark

open Json

structure Favorite where
  key : String
  name : String
  icon : Option String
  deriving DecidableEq

namespace Favorite

def members (favorite : Favorite) : List (String × Json) :=
  [("locationKey", .string favorite.key), ("displayName", .string favorite.name)] ++
    ofOptional "iconPath" favorite.icon

structure Draft where
  key : Option String
  name : Option String
  icon : Option (Option String)

def fields : List (Json.Field Draft) :=
  [.of "locationKey" false Decoder.text Draft.key fun draft key => { draft with key := some key },
   .of "displayName" true Decoder.text Draft.name
     fun draft name => { draft with name := some name },
   .of "iconPath" true (Decoder.optional Decoder.text) Draft.icon
     fun draft icon => { draft with icon := some icon }]

def ofDraft? (draft : Draft) : Option Favorite := do
  some ⟨← draft.key, draft.name.getD "", draft.icon.getD none⟩

def decoder : Decoder Favorite :=
  .record fields ⟨none, none, none⟩ ofDraft?

end Favorite
end Waymark
