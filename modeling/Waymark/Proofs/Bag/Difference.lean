import Waymark.Proofs.Bag
import Waymark.Proofs.Json.Same
import Waymark.Proofs.Text.Case
/-!
# What bags differ in

A change of a bag tells the names whose values it changed, in one spelling or another. Setting,
removing and replacing tell exactly those.
-/

namespace Waymark.Bag

variable {a b c bag mirror : Bag} {name other : String}

theorem mem_put_of_ne {value : Json} {property : Property} {properties : List Property}
    (different : property.key ≠ Text.lower name) :
    property ∈ put name value properties ↔ property ∈ properties := by
  have notNew : property ≠ ⟨name, value⟩ := fun new => different (by rw [new]; rfl)
  induction properties with
  | nil => simp [put, notNew]
  | cons first rest ih =>
      unfold put
      split
      · simp [notNew]
      split
      · rename_i same
        have notOld : property ≠ first := fun old => different (old ▸ same.symm)
        have notChanged : property ≠ { first with value } := fun changed =>
          different (by rw [changed]; exact same.symm)
        simp [notOld, notChanged]
      · simp [ih]

theorem value?_eq_of_mem_iff (same : ∀ property : Property, property.key = Text.lower name →
    (property ∈ a.properties ↔ property ∈ b.properties)) : a.value? name = b.value? name := by
  refine Option.ext fun value => ?_
  rw [value?_eq_some, value?_eq_some]
  exact exists_congr fun property => and_congr_left fun found => same property found.1

theorem value?_congr (bag : Bag) (same : Text.lower name = Text.lower other) :
    bag.value? name = bag.value? other := by
  simp only [value?, find?, same]

theorem value?_set_of_ne {value : Json} (different : Text.lower other ≠ Text.lower name) :
    (bag.set name value).1.value? other = bag.value? other := by
  unfold set
  split
  · rfl
  split
  · rfl
  · exact value?_eq_of_mem_iff fun property key => mem_put_of_ne (key ▸ different)

theorem value?_remove_of_ne (different : Text.lower other ≠ Text.lower name) :
    (bag.remove name).1.value? other = bag.value? other := by
  refine value?_eq_of_mem_iff fun property key => ?_
  simp only [remove, List.mem_filter, decide_eq_true_eq, and_iff_left_iff_imp]
  exact fun _ same => different (key.symm.trans same)

theorem value?_remove (bag : Bag) (name : String) : (bag.remove name).1.value? name = none := by
  refine Option.eq_none_iff_forall_ne_some.mpr fun value found => ?_
  obtain ⟨property, inside, key, -⟩ := value?_eq_some.mp found
  exact of_decide_eq_true (List.mem_filter.mp inside).2 key

theorem sameOrMissing_set (nonempty : name ≠ "") (value : Json) :
    Json.sameOrMissing ((bag.set name value).1.value? name) (some value) = true := by
  unfold set
  rw [dif_neg nonempty]
  split
  · rwa [Json.sameOrMissing_some]
  · rw [value?_eq_some.mpr (exists_mem_put name value bag.properties)]
    exact Json.same_refl value

theorem value?_set_of_changed {value : Json} (changed : (bag.set name value).2 = true) :
    (bag.set name value).1.value? name = some value ∧
      Json.sameOrMissing (bag.value? name) (some value) = false := by
  unfold set at changed ⊢
  split at changed
  · cases changed
  split at changed
  · cases changed
  · rename_i nonempty new
    rw [dif_neg nonempty, if_neg new, Json.sameOrMissing_some]
    exact ⟨value?_eq_some.mpr (exists_mem_put name value bag.properties), Bool.eq_false_iff.mpr new⟩

theorem value?_of_mem {property : Property} (inside : property ∈ bag.properties) :
    bag.value? property.name = some property.value :=
  value?_eq_some.mpr ⟨property, inside, rfl, rfl⟩

theorem findKey?_empty_key (bag : Bag) : bag.findKey? "" = none := by
  refine List.find?_eq_none.mpr fun property inside unnamed => ?_
  exact bag.named property inside (Text.eq_empty_of_lower (of_decide_eq_true unnamed))

theorem find?_empty_name (bag : Bag) : bag.find? "" = none :=
  bag.findKey?_empty_key

theorem value?_empty_name (bag : Bag) : bag.value? "" = none := by
  rw [value?, find?_empty_name, Option.map_none]

/-- Two bags have equal values under a name, or none. -/
def AgreeOn (a b : Bag) (name : String) : Prop :=
  Json.sameOrMissing (a.value? name) (b.value? name) = true

theorem agreeOn_of_eq (same : a.value? name = b.value? name) : a.AgreeOn b name := by
  rw [AgreeOn, same]
  exact Json.sameOrMissing_refl _

theorem AgreeOn.trans (first : a.AgreeOn b name) (second : b.AgreeOn c name) : a.AgreeOn c name :=
  Json.sameOrMissing_trans first second

theorem AgreeOn.plain (agree : a.AgreeOn b name) :
    (a.value? name).map Json.plain = (b.value? name).map Json.plain :=
  Json.sameOrMissing_iff.mp agree

theorem agreeOn_congr (same : Text.lower name = Text.lower other) :
    a.AgreeOn b name ↔ a.AgreeOn b other := by
  rw [AgreeOn, AgreeOn, a.value?_congr same, b.value?_congr same]

theorem AgreeOn.value?_eq (agree : a.AgreeOn b name) {value : Json}
    (found : b.value? name = some value) (whole : value.NoDoubles) : a.value? name = some value := by
  rw [AgreeOn, found, Json.sameOrMissing_some] at agree
  obtain ⟨old, there, same⟩ := (Option.any_eq_true _ _).mp agree
  rw [there, Json.eq_of_same same whole]

/-- The names tell, in one spelling or another, exactly where two bags do not agree. -/
def Tells (names : List String) (old new : Bag) : Prop :=
  ∀ name, (∃ told ∈ names, Text.lower told = Text.lower name) ↔ ¬old.AgreeOn new name

theorem tells_nil (bag : Bag) : Tells [] bag bag := by
  intro name
  simp [agreeOn_of_eq]

theorem tells_singleton (others : ∀ other, Text.lower other ≠ Text.lower name →
    b.value? other = a.value? other) (differ : ¬a.AgreeOn b name) : Tells [name] a b := by
  intro other
  simp only [List.mem_singleton, exists_eq_left]
  constructor
  · exact fun same agree => differ ((agreeOn_congr same).mpr agree)
  · refine fun notAgree => Decidable.byContradiction fun different => notAgree ?_
    exact agreeOn_of_eq (others other (Ne.symm different)).symm

theorem Tells.append {first second : List String} (early : Tells first a b) (late : Tells second b c)
    (apart : ∀ name, b.value? name = a.value? name ∨ c.value? name = b.value? name) :
    Tells (first ++ second) a c := by
  intro name
  simp only [List.mem_append, or_and_right, exists_or, early name, late name]
  rcases apart name with same | same <;>
    simp [AgreeOn, same, Json.sameOrMissing_refl]

theorem Tells.eq_nil {names : List String} (tells : Tells names a b)
    (agree : ∀ name, a.AgreeOn b name) : names = [] := by
  refine List.eq_nil_iff_forall_not_mem.mpr fun name inside => ?_
  exact (tells name).mp ⟨name, inside, rfl⟩ (agree name)

theorem tells_set {value : Json} (changed : (bag.set name value).2 = true) :
    Tells [name] bag (bag.set name value).1 := by
  obtain ⟨new, another⟩ := value?_set_of_changed changed
  refine tells_singleton (fun other different => value?_set_of_ne different) ?_
  rw [AgreeOn, new, another]
  exact Bool.false_ne_true

theorem tells_remove (present : bag.contains name = true) :
    Tells [name] bag (bag.remove name).1 := by
  obtain ⟨property, found⟩ := Option.isSome_iff_exists.mp present
  refine tells_singleton (fun other different => value?_remove_of_ne different) ?_
  rw [AgreeOn, value?_remove, value?, found]
  exact Bool.false_ne_true

theorem mem_missingIn {old new : Bag} :
    name ∈ missingIn new old ↔
      ∃ property ∈ old.properties, new.value? property.name = none ∧ property.name = name := by
  simp [missingIn, value?, find?, Property.key, and_assoc]

theorem mem_changedFrom {old new : Bag} :
    name ∈ changedFrom old new ↔
      ∃ property ∈ new.properties,
        Json.sameOrMissing (old.value? property.name) (some property.value) = false ∧
          property.name = name := by
  simp [changedFrom, Json.sameOrMissing_some, value?, find?, Property.key, and_assoc,
    Option.any_map]

theorem tells_changes (old new : Bag) : Tells (old.changes new) old new := by
  intro name
  simp only [changes, List.mem_append, mem_missingIn, mem_changedFrom]
  constructor
  · rintro ⟨told, ⟨property, inside, missing, rfl⟩ | ⟨property, inside, changed, rfl⟩, same⟩ agree
    · rw [← agreeOn_congr same, AgreeOn, value?_of_mem inside, missing] at agree
      cases agree
    · rw [← agreeOn_congr same, AgreeOn, value?_of_mem inside, changed] at agree
      cases agree
  · intro differ
    rw [AgreeOn] at differ
    cases later : new.value? name with
    | none =>
        cases earlier : old.value? name with
        | none =>
            rw [later, earlier] at differ
            exact absurd rfl differ
        | some value =>
            obtain ⟨property, inside, key, -⟩ := value?_eq_some.mp earlier
            refine ⟨property.name, .inl ⟨property, inside, ?_, rfl⟩, key⟩
            rwa [new.value?_congr key]
    | some value =>
        obtain ⟨property, inside, key, rfl⟩ := value?_eq_some.mp later
        refine ⟨property.name, .inr ⟨property, inside, ?_, rfl⟩, key⟩
        rw [later, ← old.value?_congr key] at differ
        exact Bool.eq_false_iff.mpr differ

theorem changes_differ (old new : Bag) :
    (old.changes new).Pairwise fun a b => Text.lower a ≠ Text.lower b := by
  refine List.pairwise_append.mpr ⟨?_, ?_, fun _ missing _ present same => ?_⟩
  · exact List.pairwise_map.mpr (old.keysDiffer.filter _)
  · exact List.pairwise_map.mpr (new.keysDiffer.filter _)
  · obtain ⟨gone, -, left, rfl⟩ := mem_missingIn.mp missing
    obtain ⟨property, inside, -, rfl⟩ := mem_changedFrom.mp present
    rw [new.value?_congr same, value?_of_mem inside] at left
    cases left

def refresh (mirror source : Bag) (name : String) : Bag :=
  match source.value? name with
  | some value => (mirror.set name value).1
  | none => (mirror.remove name).1

theorem agreeOn_refresh (mirror source : Bag) (name : String) :
    (mirror.refresh source name).AgreeOn source name := by
  unfold refresh
  split
  · rename_i value found
    have nonempty : name ≠ "" := by
      rintro rfl
      rw [source.value?_empty_name] at found
      cases found
    rw [AgreeOn, found]
    exact sameOrMissing_set nonempty value
  · rename_i missing
    rw [AgreeOn, missing, value?_remove]
    rfl

theorem value?_refresh_of_ne {source : Bag}
    (different : Text.lower other ≠ Text.lower name) :
    (mirror.refresh source name).value? other = mirror.value? other := by
  unfold refresh
  split
  · exact value?_set_of_ne different
  · exact value?_remove_of_ne different

end Waymark.Bag
