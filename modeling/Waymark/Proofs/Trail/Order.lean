import Waymark.Trail
/-!
# The order of a trail

Instants are in a linear order, so entries are too once their sequences differ. Sorting then gives
the strict order, and taking the first entry of each key leaves no two entries of one key.
-/

namespace Waymark

theorem Text.sameAscii_comm (a b : List Char) : sameAscii a b = sameAscii b a := by
  induction a generalizing b with
  | nil => cases b <;> rfl
  | cons c rest ih =>
      cases b with
      | nil => rfl
      | cons d others => simp only [sameAscii, ih, eq_comm]

theorem Key.same_comm (a b : String) : same a b = same b a := by
  simp only [same, Text.sameButCase]
  rw [Text.sameAscii_comm a.toList, Bool.and_comm (Text.isAscii a.toList), BEq.comm]

namespace Instant

theorem lt_iff (a b : Instant) :
    a < b ↔ a.seconds < b.seconds ∨ a.seconds = b.seconds ∧ a.nanos < b.nanos :=
  Iff.rfl

theorem eq_iff (a b : Instant) : a = b ↔ a.seconds = b.seconds ∧ a.nanos = b.nanos := by
  obtain ⟨s, n⟩ := a
  obtain ⟨t, m⟩ := b
  exact Instant.mk.injEq s n t m ▸ Iff.rfl

theorem lt_irrefl (a : Instant) : ¬a < a := by
  simp only [lt_iff]
  omega

theorem lt_asymm {a b : Instant} (before : a < b) : ¬b < a := by
  simp only [lt_iff] at *
  omega

theorem lt_trichotomy (a b : Instant) : a < b ∨ a = b ∨ b < a := by
  simp only [lt_iff, eq_iff]
  omega

theorem lt_of_not_lt_of_lt {a b c : Instant} (first : ¬b < a) (second : b < c) : a < c := by
  simp only [lt_iff] at *
  omega

end Instant

namespace Entry

theorem later_iff (a b : Entry) :
    a.Later b ↔ b.visited < a.visited ∨ a.visited = b.visited ∧ b.sequence < a.sequence :=
  Iff.rfl

theorem Later.asymm {a b : Entry} (later : a.Later b) : ¬b.Later a := by
  simp only [later_iff, Instant.lt_iff, Instant.eq_iff] at *
  omega

theorem Later.trans {a b c : Entry} (first : a.Later b) (second : b.Later c) : a.Later c := by
  simp only [later_iff, Instant.lt_iff, Instant.eq_iff] at *
  omega

theorem Later.of_not_later {a b : Entry} (notAfter : ¬b.Later a)
    (different : a.sequence ≠ b.sequence) : a.Later b := by
  rcases Instant.lt_trichotomy a.visited b.visited with before | same | behind
  · exact absurd (.inl before) notAfter
  · refine .inr ⟨same, ?_⟩
    have notBelow : ¬a.sequence < b.sequence := fun below => notAfter (.inr ⟨same.symm, below⟩)
    omega
  · exact .inl behind

theorem Later.sequence_lt {a b : Entry} (later : a.Later b) (same : a.visited = b.visited) :
    b.sequence < a.sequence := by
  simp only [later_iff, Instant.lt_iff, Instant.eq_iff] at *
  omega

theorem not_later_trans {a b c : Entry} (first : ¬b.Later a) (second : ¬c.Later b) :
    ¬c.Later a := by
  simp only [later_iff, Instant.lt_iff, Instant.eq_iff] at *
  omega

theorem sort_perm (entries : List Entry) : (sort entries).Perm entries :=
  List.mergeSort_perm _ _

theorem mem_sort {entries : List Entry} {entry : Entry} :
    entry ∈ sort entries ↔ entry ∈ entries :=
  (sort_perm entries).mem_iff

theorem sort_not_later (entries : List Entry) :
    (sort entries).Pairwise fun a b => ¬b.Later a := by
  have sorted := @List.pairwise_mergeSort Entry (fun a b => !decide (Later b a))
    (fun a b c first second => by
      simp only [Bool.not_eq_true', decide_eq_false_iff_not] at *
      exact not_later_trans first second)
    (fun a b => by
      by_cases later : b.Later a
      · simp [later, later.asymm]
      · simp [later]) entries
  exact sorted.imp fun notAfter => by simpa using notAfter

def ToldApart (entries : List Entry) : Prop :=
  entries.Pairwise fun a b => a.sequence ≠ b.sequence

def KeysDiffer (entries : List Entry) : Prop :=
  entries.Pairwise fun a b => Key.same a.key b.key = false

theorem sort_toldApart {entries : List Entry} (apart : ToldApart entries) :
    ToldApart (sort entries) :=
  apart.perm (sort_perm entries).symm fun different => different.symm

theorem sort_keysDiffer {entries : List Entry} (differ : KeysDiffer entries) :
    KeysDiffer (sort entries) :=
  differ.perm (sort_perm entries).symm fun different => by rwa [Key.same_comm]

theorem sort_later {entries : List Entry} (apart : ToldApart entries) :
    (sort entries).Pairwise Later :=
  ((sort_not_later entries).and (sort_toldApart apart)).imp fun both =>
    Later.of_not_later both.1 both.2

theorem sort_of_later {entries : List Entry} (sorted : entries.Pairwise Later) :
    sort entries = entries :=
  List.mergeSort_of_pairwise (sorted.imp fun later => by simpa using later.asymm)

end Entry
end Waymark
