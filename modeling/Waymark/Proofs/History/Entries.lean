import Waymark.Proofs.Bag
import Waymark.Proofs.Trail.Written
/-!
# The entries in a history document

What a document holds of a trail: the entries come back from their value, and whatever a document
holds instead, the entries taken from it have instants on the calendar. A trail is recorded exactly
when it was changed.
-/

namespace Waymark

open Json

theorem Entry.members_strings (entry : Entry) :
    ∀ member ∈ entry.members, ∃ text, member.2 = .string text := by
  intro member inside
  rw [Entry.members] at inside
  cases icon : entry.icon <;> simp only [icon, ofOptional] at inside <;> grind

namespace History
open Entry

theorem entriesValue_held (entries : List Entry) :
    (entriesValue entries).Held (maximumDepth - 1) := by
  refine held_array (by decide) fun item inside => ?_
  obtain ⟨entry, -, rfl⟩ := List.mem_map.mp inside
  exact held_ofStrings (by decide) entry.members_strings

theorem entriesValue_noDoubles (entries : List Entry) : (entriesValue entries).NoDoubles := by
  refine everyNumberItems_iff.mpr fun item inside => ?_
  obtain ⟨entry, -, rfl⟩ := List.mem_map.mp inside
  exact noDoubles_ofStrings entry.members_strings

theorem list_entriesValue {entries : List Entry} (valid : ∀ entry ∈ entries, entry.visited.Valid) :
    Decoder.list Entry.decoder (Tree.ofJson (entriesValue entries)) = .ok (entries.map bare) := by
  rw [entriesValue, Tree.ofJson, Decoder.list]
  exact Decoder.items_ofItems fun entry inside => decoder_ofMembers (valid entry inside)

theorem entriesOf_of_value? {bag : Bag} {entries : List Entry}
    (valid : ∀ entry ∈ entries, entry.visited.Valid)
    (stored : bag.value? entriesName = some (entriesValue entries)) :
    entriesOf bag = entries.map bare := by
  simp only [entriesOf, Bag.get?, stored, Option.bind_some, convert?, list_entriesValue valid,
    Option.getD_some]

theorem entriesOf_valid (bag : Bag) : ∀ entry ∈ entriesOf bag, entry.visited.Valid := by
  unfold entriesOf Bag.get?
  cases found : (bag.value? entriesName).bind (convert? (Decoder.list Entry.decoder)) with
  | none => simp
  | some entries =>
      obtain ⟨value, -, converted⟩ := Option.bind_eq_some_iff.mp found
      obtain ⟨tree, taken⟩ := of_convert? converted
      exact Decoder.list_all (fun _ _ => valid_of_decoder) taken

theorem commit_changed {history : History} {change : Trail × Bool} (changed : change.2 = true)
    (disk : Disk) : history.commit disk change =
      ((history.record change.1 disk).1, (history.record change.1 disk).2, true) := by
  rw [commit, if_pos changed]

theorem commit_unchanged {history : History} {change : Trail × Bool} (unchanged : change.2 = false)
    (disk : Disk) : history.commit disk change = ({ history with trail := change.1 }, disk, false) := by
  rw [commit, if_neg (Bool.eq_false_iff.mp unchanged)]

end History
end Waymark
