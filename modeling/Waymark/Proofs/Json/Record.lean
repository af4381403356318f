import Waymark.Json.Record
import Waymark.Proofs.Outcome
/-!
# Taken records

What every field keeps true of a draft is true of the draft of a whole record, whether it is
written as an object or as an array.
-/

namespace Waymark.Json

variable {δ α : Type} {condition : δ → Prop}

def Field.Keeps (field : Field δ) (condition : δ → Prop) : Prop :=
  ∀ tree draft next, condition draft → field.store tree draft = .ok next → condition next

theorem Field.keeps_of {name : String} {mayLack : Bool} {decoder : Decoder α}
    {find? : δ → Option α} {store : δ → α → δ}
    (kept : ∀ tree draft value, condition draft → decoder tree = .ok value →
      condition (store draft value)) :
    (Field.of name mayLack decoder find? store).Keeps condition := by
  intro tree draft next holds stored
  obtain ⟨value, taken, same⟩ := of_map_ok stored
  exact same ▸ kept tree draft value holds taken

namespace Decoder

theorem fieldsByName_keeps {fields : List (Field δ)}
    (keeps : ∀ field ∈ fields, field.Keeps condition) {draft result : δ} (holds : condition draft)
    (members : Members) (taken : fieldsByName fields draft members = .ok result) :
    condition result := by
  match members with
  | .close =>
      cases taken
      exact holds
  | .fault _ => cases taken
  | .member key value rest =>
      obtain ⟨name, -, taken⟩ := of_bind_ok taken
      split at taken
      · obtain ⟨_, -, taken⟩ := of_bind_ok taken
        exact fieldsByName_keeps keeps holds rest taken
      · rename_i field known
        split at taken
        · cases taken
        · obtain ⟨next, stored, taken⟩ := of_bind_ok taken
          have still := keeps field (List.mem_of_find?_eq_some known) value draft next holds stored
          exact fieldsByName_keeps keeps still rest taken

theorem fieldsInOrder_keeps {fields : List (Field δ)}
    (keeps : ∀ field ∈ fields, field.Keeps condition) {draft result : δ} (holds : condition draft)
    (items : Items) (taken : fieldsInOrder draft fields items = .ok result) : condition result := by
  induction fields generalizing draft items with
  | nil =>
      cases items with
      | close =>
          cases taken
          exact holds
      | fault _ => cases taken
      | item _ _ => cases taken
  | cons field rest ih =>
      obtain ⟨here, there⟩ := List.forall_mem_cons.mp keeps
      cases items with
      | fault _ => cases taken
      | close =>
          simp only [fieldsInOrder] at taken
          split at taken
          · exact ih there holds .close taken
          · cases taken
      | item value others =>
          obtain ⟨next, stored, taken⟩ := of_bind_ok taken
          exact ih there (here value draft next holds stored) others taken

theorem record_keeps {fields : List (Field δ)} (keeps : ∀ field ∈ fields, field.Keeps condition)
    {start : δ} (holds : condition start) {finish? : δ → Option α} {tree : Tree} {value : α}
    (taken : record fields start finish? tree = .ok value) :
    ∃ draft, condition draft ∧ finish? draft = some value := by
  obtain ⟨draft, found, taken⟩ := of_bind_ok taken
  refine ⟨draft, ?_, ?_⟩
  · unfold fieldsOf at found
    split at found
    · exact fieldsByName_keeps keeps holds _ found
    · exact fieldsInOrder_keeps keeps holds _ found
    · cases found
    · cases found
  · split at taken
    · rename_i finished
      cases taken
      exact finished
    · cases taken

theorem items_all {decoder : Decoder α} {condition : α → Prop}
    (each : ∀ tree value, decoder tree = .ok value → condition value) (content : Items)
    {values : List α} (taken : items decoder content = .ok values) :
    ∀ value ∈ values, condition value := by
  match content with
  | .close =>
      cases taken
      simp
  | .fault _ => cases taken
  | .item value rest =>
      obtain ⟨first, here, taken⟩ := of_bind_ok taken
      obtain ⟨others, there, taken⟩ := of_bind_ok taken
      cases taken
      exact List.forall_mem_cons.mpr ⟨each value first here, items_all each rest there⟩

theorem list_all {decoder : Decoder α} {condition : α → Prop}
    (each : ∀ tree value, decoder tree = .ok value → condition value) {tree : Tree}
    {values : List α} (taken : list decoder tree = .ok values) :
    ∀ value ∈ values, condition value := by
  unfold list at taken
  split at taken
  · exact items_all each _ taken
  · cases taken
  · cases taken

theorem items_ofItems {decoder : Decoder α} {β : Type} {f : β → Json} {g : β → α} {values : List β}
    (each : ∀ value ∈ values, decoder (Tree.ofJson (f value)) = .ok (g value)) :
    items decoder (Tree.ofItems (values.map f)) = .ok (values.map g) := by
  induction values with
  | nil => rfl
  | cons first rest ih =>
      obtain ⟨here, there⟩ := List.forall_mem_cons.mp each
      simp only [List.map_cons, Tree.ofItems, items, here, ih there]
      rfl

end Decoder

theorem of_convert? {decoder : Decoder α} {json : Json} {value : α}
    (converted : convert? decoder json = some value) : ∃ tree, decoder tree = .ok value := by
  unfold convert? at converted
  split at converted
  · rename_i taken
    cases converted
    exact ⟨_, taken⟩
  · split at converted
    · rename_i text _
      cases decoded : decode decoder (Text.trim text) with
      | error fault => simp [decoded, Except.toOption] at converted
      | ok found =>
          rw [decoded] at converted
          cases converted
          obtain ⟨taken, ok, ended⟩ := of_bind_ok (show _ >>= _ = _ from decoded)
          split at ended
          · cases ended
          · cases ended
            exact ⟨_, ok⟩
    · cases converted

end Waymark.Json
