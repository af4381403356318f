import Waymark.Proofs.Trail.Visited
/-!
# Icons that stay

An entry that has an icon keeps it, and keeps the spelling of its key, through visits and removals,
as long as it is in the trail.
-/

namespace Waymark

namespace Entry

theorem eq_of_key_same {entries : List Entry} (differ : KeysDiffer entries) {a b : Entry}
    (inA : a ∈ entries) (inB : b ∈ entries) (same : Key.same a.key b.key = true) : a = b :=
  List.Pairwise.forall_of_forall_of_flip (R := fun a b => Key.same a.key b.key = true → a = b)
    (fun _ _ _ => rfl) (differ.imp fun apart same => absurd same (by simp [apart]))
    (differ.imp fun apart same => absurd same (by rw [Key.same_comm]; simp [apart])) inA inB same

/-- An entry that is there before and after has kept its key, and its icon if it had one. -/
def KeepsIcons (before after : List Entry) : Prop :=
  ∀ old ∈ before, ∀ new ∈ after, Key.same new.key old.key = true →
    new.key = old.key ∧ ∀ icon, old.icon = some icon → new.icon = some icon

theorem keepsIcons_of_subset {before after : List Entry} (differ : KeysDiffer before)
    (subset : after ⊆ before) : KeepsIcons before after := by
  intro old inside new there same
  rw [eq_of_key_same differ (subset there) inside same]
  exact ⟨rfl, fun _ => id⟩

end Entry

namespace Trail
open Entry

variable {trail : Trail}

theorem Coherent.keepsIcons_visit (coherent : trail.Coherent) (location : Location)
    (icon : Option String) (now : Instant) :
    KeepsIcons trail.entries (trail.visit location icon now).1.entries := by
  cases recordable : location.isRecordable with
  | false =>
      rw [visit_of_not_recordable recordable]
      exact keepsIcons_of_subset coherent.keysDiffer (List.Subset.refl _)
  | true =>
      intro old inside new there same
      rcases coherent.mem_visit_entries recordable there with other | rfl
      · exact keepsIcons_of_subset coherent.keysDiffer (List.Subset.refl _) old inside new
          (List.mem_filter.mp other).1 same
      · -- The visit was to the location of the old entry, so it has found that entry.
        have known : Key.same old.key location.key = true := by
          rw [Text.sameButCase_iff] at same ⊢
          exact same.symm.trans ((Text.sameButCase_iff _ _).mp
            (trail.recordedVisit_key location icon now))
        unfold recordedVisit
        cases found : trail.find? location.key with
        | none => exact absurd known (List.find?_eq_none.mp found old inside)
        | some entry =>
            have alike : Key.same entry.key location.key = true := by simpa using List.find?_some found
            rw [eq_of_key_same coherent.keysDiffer (List.mem_of_find?_eq_some found) inside
              (Key.same_of_same alike known)]
            exact ⟨rfl, fun icon had => by simp [Entry.visit, had]⟩

end Trail
end Waymark
