import Waymark.Proofs.Document.Contents
import Waymark.Proofs.Json.Record
import Waymark.Settings
/-!
# Favorites in documents

Favorites are written as values that documents can hold, and read back as they were. What stays of
them when those go whose locations are gone is therefore what the settings have afterwards.
-/

namespace Waymark

open Json

namespace Favorite

theorem ofMembers_members (favorite : Favorite) :
    Json.ofMembers favorite.members =
      .object (("displayName", .string favorite.name) :: ofOptional "iconPath" favorite.icon ++
        [("locationKey", .string favorite.key)]) := by
  rw [Json.ofMembers, members]
  cases favorite.icon <;>
    simp +decide only [ofOptional, orderMembers, insertMember, List.cons_append, List.nil_append,
      List.append_nil, List.foldl_cons, List.foldl_nil, if_true, if_false]

theorem decoder_ofMembers (favorite : Favorite) :
    decoder (Tree.ofJson (.ofMembers favorite.members)) = .ok favorite := by
  obtain ⟨key, name, icon⟩ := favorite
  rw [ofMembers_members]
  cases icon <;>
    simp +decide [ofOptional, Tree.ofJson, Tree.ofMembers, decoder, Decoder.record,
      Decoder.fieldsOf, Decoder.fieldsByName, fields, Decoder.name, Field.of, Decoder.text,
      Decoder.optional, ofDraft?, bind, Except.bind, Except.map]

theorem decoder_members (favorite : Favorite) :
    decoder (Tree.ofJson (.object favorite.members)) = .ok favorite := by
  obtain ⟨key, name, icon⟩ := favorite
  cases icon <;>
    simp +decide [members, ofOptional, Tree.ofJson, Tree.ofMembers, decoder, Decoder.record,
      Decoder.fieldsOf, Decoder.fieldsByName, fields, Decoder.name, Field.of, Decoder.text,
      Decoder.optional, ofDraft?, bind, Except.bind, Except.map]

theorem members_strings (favorite : Favorite) :
    ∀ member ∈ favorite.members, ∃ text, member.2 = .string text := by
  intro member inside
  rw [members] at inside
  cases icon : favorite.icon <;> simp only [icon, ofOptional] at inside <;> grind

end Favorite

namespace Settings

theorem favoritesValue_noDoubles (favorites : List Favorite) :
    (favoritesValue favorites).NoDoubles := by
  refine everyNumberItems_iff.mpr fun item inside => ?_
  obtain ⟨favorite, -, rfl⟩ := List.mem_map.mp inside
  exact noDoubles_ofStrings favorite.members_strings

theorem favorites_of_value? {bag : Bag} {list : List Favorite}
    (stored : bag.value? "favorites" = some (favoritesValue list)) : favorites bag = list := by
  have read : Decoder.list Favorite.decoder (Tree.ofJson (favoritesValue list)) = .ok list := by
    rw [favoritesValue, Tree.ofJson, Decoder.list]
    refine (Decoder.items_ofItems (g := id) fun favorite _ => ?_).trans (by rw [List.map_id])
    exact favorite.decoder_ofMembers
  simp only [favorites, Bag.get?, stored, Option.bind_some, convert?, read, Option.getD_some]

theorem favorites_setFavorites (document : Document) (disk : Disk) (list : List Favorite) :
    favorites (setFavorites document disk list).1.bag = list := by
  refine favorites_of_value? ?_
  rw [setFavorites, (Document.setAndSave_bag document disk _ _).1]
  exact Bag.value?_set (by decide) (favoritesValue_noDoubles list)

theorem pruneFavorites_favorites (document : Document) (disk : Disk) (isThere : String → Bool) :
    let outcome := pruneFavorites document disk isThere
    favorites outcome.1.bag =
        (favorites document.bag).filter (fun favorite => isThere favorite.key) ∧
      (outcome.2.2 = true ↔ favorites outcome.1.bag ≠ favorites document.bag) := by
  unfold pruneFavorites
  dsimp only
  have sublist : ((favorites document.bag).filter fun favorite => isThere favorite.key).Sublist
      (favorites document.bag) := List.filter_sublist
  split
  · rename_i all
    exact ⟨(sublist.eq_of_length all).symm, by simp⟩
  · rename_i fewer
    have left := favorites_setFavorites document disk
      ((favorites document.bag).filter fun favorite => isThere favorite.key)
    refine ⟨left, iff_of_true rfl fun same => fewer ?_⟩
    exact congrArg List.length (left.symm.trans same)

end Settings
end Waymark
