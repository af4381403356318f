import Mathlib.Data.Option.Basic
import Waymark.Proofs.Bag.Difference
/-!
# The latest values

What changes of a bag come to: under each name the last value that was set, if it was not removed
since. A bag that was written and read in the meantime shows the same, but for its doubles.
-/

namespace Waymark

namespace Json

/-- A value, or one that counts as the same, after it was written and read any number of times. -/
inductive Remains (value : Json) : Json → Prop where
  | kept {other : Json} (same : other.same value = true) : Remains value other
  | reread {left : Json} (before : Remains value left) : Remains value left.reread

theorem remains_self (value : Json) : value.Remains value :=
  .kept (same_refl value)

theorem Remains.eq {value left : Json} (remains : value.Remains left) (whole : value.NoDoubles) :
    left = value := by
  induction remains with
  | kept same => exact eq_of_same same whole
  | reread _ ih => rw [ih, reread_of_noDoubles whole]

end Json

namespace Bag

/-- What a name stands for after changes of a bag, the latest of which comes first. A change sets a
value or removes it. -/
def latest (bag : Bag) : List (String × Option Json) → String → Option Json
  | [], name => bag.value? name
  | (changed, value) :: earlier, name =>
      if Text.lower changed = Text.lower name then value else latest bag earlier name

def Shows (bag first : Bag) (changes : List (String × Option Json)) (name : String) : Prop :=
  Option.Rel Json.Remains (first.latest changes name) (bag.value? name)

variable {bag first : Bag} {changes : List (String × Option Json)} {name other : String}
  {value : Option Json}

theorem shows_first (first : Bag) (name : String) : first.Shows first [] name := by
  rw [Shows, latest]
  cases first.value? name with
  | none => exact .none
  | some value => exact .some value.remains_self

theorem Shows.of_value? {next : Bag} (shows : bag.Shows first changes name)
    (same : next.value? name = bag.value? name) : next.Shows first changes name := by
  rwa [Shows, same]

theorem value?_reread (bag : Bag) (name : String) :
    bag.reread.value? name = (bag.value? name).map Json.reread := by
  simp only [value?, find?, findKey?, reread, List.find?_map, Option.map_map]
  rfl

theorem Shows.reread (shows : bag.Shows first changes name) :
    bag.reread.Shows first changes name := by
  rw [Shows, value?_reread]
  rw [Shows] at shows
  generalize first.latest changes name = expected at shows ⊢
  generalize bag.value? name = found at shows ⊢
  cases shows with
  | none => exact .none
  | some remains => exact .some remains.reread

theorem shows_cons_of_ne (different : Text.lower other ≠ Text.lower name) :
    bag.Shows first ((name, value) :: changes) other ↔ bag.Shows first changes other := by
  rw [Shows, Shows, latest, if_neg (Ne.symm different)]

theorem latest_cons_of_eq (same : Text.lower other = Text.lower name) :
    first.latest ((name, value) :: changes) other = value := by
  rw [latest, if_pos same.symm]

theorem shows_set {value : Json} (nonempty : other ≠ "")
    (shows : Text.lower other ≠ Text.lower name → bag.Shows first changes other) :
    (bag.set name value).1.Shows first ((name, some value) :: changes) other := by
  by_cases same : Text.lower other = Text.lower name
  · have named : name ≠ "" := by
      rintro rfl
      exact nonempty (Text.eq_empty_of_lower same)
    have set := @sameOrMissing_set bag name named value
    rw [← value?_congr _ same, Json.sameOrMissing_some] at set
    obtain ⟨left, found, remains⟩ := (Option.any_eq_true _ _).mp set
    rw [Shows, latest_cons_of_eq same, found]
    exact .some (.kept remains)
  · rw [shows_cons_of_ne same]
    exact (shows same).of_value? (value?_set_of_ne same)

theorem shows_set_of_changed {value : Json} (changed : (bag.set name value).2 = true)
    (shows : bag.Shows first changes other) :
    (bag.set name value).1.Shows first ((name, some value) :: changes) other := by
  by_cases same : Text.lower other = Text.lower name
  · rw [Shows, latest_cons_of_eq same, value?_congr _ same, (value?_set_of_changed changed).1]
    exact .some value.remains_self
  · rw [shows_cons_of_ne same]
    exact shows.of_value? (value?_set_of_ne same)

theorem shows_remove (shows : Text.lower other ≠ Text.lower name → bag.Shows first changes other) :
    (bag.remove name).1.Shows first ((name, none) :: changes) other := by
  by_cases same : Text.lower other = Text.lower name
  · rw [Shows, latest_cons_of_eq same, value?_congr _ same, value?_remove]
    exact .none
  · rw [shows_cons_of_ne same]
    exact (shows same).of_value? (value?_remove_of_ne same)

theorem Shows.value?_eq {value : Json} (shows : bag.Shows first changes name)
    (found : first.latest changes name = some value) (whole : value.NoDoubles) :
    bag.value? name = some value := by
  rw [Shows, found] at shows
  generalize bag.value? name = left at shows
  cases shows with
  | some remains => rw [remains.eq whole]

end Bag
end Waymark
