import Waymark.Proofs.Text.Case
/-!
# Items of different keys

Sameness of keys is an equivalence. In a list without two items of one key, the first item of a key
is the only one.
-/

namespace Waymark.Key

theorem same_refl (key : String) : same key key = true :=
  (Text.sameButCase_iff key key).mpr rfl

theorem same_congr {a b : String} (equal : same a b = true) (key : String) :
    same a key = same b key := by
  have lowered := (Text.sameButCase_iff a b).mp equal
  rw [Bool.eq_iff_iff, same, same, Text.sameButCase_iff, Text.sameButCase_iff, lowered]

theorem same_of_same {a b key : String} (first : same a key = true) (second : same b key = true) :
    same a b = true := by
  rw [same, Text.sameButCase_iff] at *
  exact first.trans second.symm

variable {α : Type} (keyOf : α → String) {items : List α} {key : String}

theorem filter_of_same {first : α} (apart : ∀ other ∈ items, same (keyOf first) (keyOf other) = false)
    (equal : same (keyOf first) key = true) :
    (items.filter fun item => !same (keyOf item) key) = items := by
  refine List.filter_eq_self.mpr fun other inside => ?_
  cases also : same (keyOf other) key with
  | false => rfl
  | true => exact absurd (same_of_same equal also) (by simp [apart other inside])

theorem eraseP_eq_filter
    (differ : items.Pairwise fun a b => same (keyOf a) (keyOf b) = false) (key : String) :
    (items.eraseP fun item => same (keyOf item) key) =
      items.filter fun item => !same (keyOf item) key := by
  induction items with
  | nil => rfl
  | cons first rest ih =>
      obtain ⟨apart, others⟩ := List.pairwise_cons.mp differ
      cases equal : same (keyOf first) key with
      | true => simp [equal, filter_of_same keyOf apart equal]
      | false => simp [equal, ih others]

end Waymark.Key
