import Waymark.History
import Waymark.Proofs.Calendar.Written
import Waymark.Proofs.Json.Held
import Waymark.Proofs.Json.Record
import Waymark.Proofs.Trail.Replace
/-!
# Entries in documents

The entries of a trail are written as values that documents can hold, and read back as they were,
but for their sequences.
-/

namespace Waymark

open Json

namespace Entry

theorem ofMembers_members (entry : Entry) :
    Json.ofMembers entry.members =
      .object (("displayName", .string entry.name) :: ofOptional "iconPath" entry.icon ++
        [("lastVisitedTime", .string entry.visited.text), ("locationKey", .string entry.key)]) := by
  rw [Json.ofMembers, members]
  cases entry.icon <;>
    simp +decide only [ofOptional, orderMembers, insertMember, List.cons_append, List.nil_append,
      List.foldl_cons, List.foldl_nil, if_true, if_false]

theorem instant_text {instant : Instant} (valid : instant.Valid) :
    Decoder.instant (.string instant.text) = .ok instant := by
  simp [Decoder.instant, Decoder.text, bind, Except.bind, Instant.ofText?_text valid]

theorem decoder_ofMembers {entry : Entry} (valid : entry.visited.Valid) :
    decoder (Tree.ofJson (.ofMembers entry.members)) = .ok entry.bare := by
  have dated := instant_text valid
  rw [ofMembers_members]
  cases icon : entry.icon with
  | none =>
      simp +decide [ofOptional, Tree.ofJson, Tree.ofMembers, decoder, Decoder.record,
        Decoder.fieldsOf, Decoder.fieldsByName, fields, Decoder.name, Field.of, Decoder.text,
        dated, ofDraft?, bind, Except.bind, Except.map, bare, icon]
  | some path =>
      simp +decide [ofOptional, Tree.ofJson, Tree.ofMembers, decoder, Decoder.record,
        Decoder.fieldsOf, Decoder.fieldsByName, fields, Decoder.name, Field.of, Decoder.text,
        Decoder.optional, dated, ofDraft?, bind, Except.bind, Except.map, bare, icon]

theorem decoder_members {entry : Entry} (valid : entry.visited.Valid) :
    decoder (Tree.ofJson (.object entry.members)) = .ok entry.bare := by
  have dated := instant_text valid
  cases icon : entry.icon <;>
    simp +decide [members, ofOptional, Tree.ofJson, Tree.ofMembers, decoder, Decoder.record,
      Decoder.fieldsOf, Decoder.fieldsByName, fields, Decoder.name, Field.of, Decoder.text,
      Decoder.optional, dated, ofDraft?, bind, Except.bind, Except.map, bare, icon]

def Draft.Dated (draft : Draft) : Prop :=
  ∀ instant ∈ draft.visited, instant.Valid

theorem fields_keep_dated : ∀ field ∈ fields, field.Keeps Draft.Dated := by
  simp only [fields, List.forall_mem_cons]
  refine ⟨?_, ?_, ?_, ?_, fun _ none => absurd none List.not_mem_nil⟩
  · exact Field.keeps_of fun _ _ _ dated _ => dated
  · exact Field.keeps_of fun _ _ _ dated _ => dated
  · exact Field.keeps_of fun _ _ _ dated _ => dated
  · refine Field.keeps_of fun tree draft visited _ taken => ?_
    obtain ⟨text, -, taken⟩ := of_bind_ok taken
    split at taken
    · rename_i read
      cases taken
      rintro instant ⟨⟩
      exact Instant.valid_of_ofText? read
    · cases taken

theorem valid_of_decoder {tree : Tree} {entry : Entry} (taken : decoder tree = .ok entry) :
    entry.visited.Valid := by
  obtain ⟨draft, dated, finished⟩ := Decoder.record_keeps fields_keep_dated (by simp [Draft.Dated]) taken
  obtain ⟨key, -, same⟩ := Option.bind_eq_some_iff.mp finished
  cases same
  cases visited : draft.visited with
  | none =>
      have start : Instant.epoch.Valid := by decide
      simpa only [visited, Option.getD_none] using start
  | some instant => simpa only [visited, Option.getD_some] using dated instant visited

end Entry

end Waymark
