import Waymark.Proofs.Bag.Merged
import Waymark.Proofs.Document.Reloaded
/-!
# Copying from a bag

Copying from a bag merges it into a document. Each property of the bag finds its own place, so none
is in the way of another, and exactly those are announced and counted whose values were not there.
-/

namespace Waymark

namespace Bag

variable {bag source : Bag} {members : List (String × Json)} {key name : String}

def newNames (bag : Bag) (members : List (String × Json)) : List String :=
  (members.filter fun member =>
    !Json.sameOrMissing (bag.value? member.1) (some member.2)).map Prod.fst

theorem set_snd (nonempty : name ≠ "") (value : Json) :
    (bag.set name value).2 = !Json.sameOrMissing (bag.value? name) (some value) := by
  unfold set
  rw [dif_neg nonempty, Json.sameOrMissing_some]
  split
  · rename_i present
    rw [present]
    rfl
  · rename_i absent
    rw [Bool.eq_false_iff.mpr absent]
    rfl

theorem newNames_cons (nonempty : name ≠ "") (value : Json) :
    bag.newNames ((name, value) :: members) =
      if (bag.set name value).2 then name :: bag.newNames members else bag.newNames members := by
  rw [newNames, List.filter_cons, ← set_snd nonempty]
  split <;> rfl

theorem newNames_set {value : Json}
    (others : ∀ member ∈ members, Text.lower name ≠ Text.lower member.1) :
    (bag.set name value).1.newNames members = bag.newNames members := by
  refine congrArg (List.map Prod.fst) (List.filter_congr fun member inside => ?_)
  rw [value?_set_of_ne (Ne.symm (others member inside))]

theorem filter_properties {properties : List Property}
    (apart : properties.Pairwise fun a b => a.key ≠ b.key) (key : String) :
    (properties.filter fun property => property.key = key) =
      (properties.find? fun property => property.key = key).toList := by
  induction properties with
  | nil => rfl
  | cons first rest ih =>
      obtain ⟨different, apart⟩ := List.pairwise_cons.mp apart
      by_cases here : first.key = key
      · have none : (rest.filter fun property => property.key = key) = [] := by
          refine List.filter_eq_nil_iff.mpr fun other inside => ?_
          simpa using fun same => different other inside (here.trans same.symm)
        rw [List.filter_cons_of_pos (by simpa using here), none,
          List.find?_cons_of_pos (by simpa using here)]
        rfl
      · rw [List.filter_cons_of_neg (by simpa using here), ih apart,
          List.find?_cons_of_neg (by simpa using here)]

theorem filter_members (bag : Bag) (key : String) :
    (bag.members.filter fun member => Text.lower member.1 = key) =
      (bag.findKey? key).toList.map fun property => (property.name, property.value) := by
  rw [findKey?, ← filter_properties bag.keysDiffer, members, List.filter_map]
  rfl

theorem findKey?_setAll_members (bag source : Bag) (key : String) :
    (bag.setAll source.members).findKey? key =
      match source.findKey? key with
      | none => bag.findKey? key
      | some property => Property.merge (bag.findKey? key) (property.name, property.value) := by
  by_cases nonempty : key = ""
  · rw [nonempty, findKey?_empty_key, findKey?_empty_key, findKey?_empty_key]
  · rw [findKey?_setAll_filter bag source.members nonempty, filter_members]
    cases source.findKey? key <;> rfl

/-- What it means to copy a bag into another. A value that is there already, or one that counts as
the same, stays. -/
structure Merges (before source after : Bag) : Prop where
  reads : ∀ property ∈ source.properties, ∀ name, Text.lower name = property.key →
    ∃ value, after.value? name = some value ∧ value.same property.value = true ∧
      (property.value.NoDoubles → value = property.value)
  kept : ∀ name, before.AgreeOn source name → after.value? name = before.value? name
  changed : ∀ name, (source.value? name).isSome → ¬before.AgreeOn source name →
    after.value? name = source.value? name
  others : ∀ name, source.value? name = none → after.find? name = before.find? name
  spelling : ∀ property ∈ before.properties,
    (after.find? property.name).map Property.name = some property.name
  new : ∀ property ∈ source.properties, before.value? property.name = none →
    after.find? property.name = some property

theorem find?_of_mem {property : Property} (inside : property ∈ bag.properties)
    (same : Text.lower name = property.key) : bag.find? name = some property :=
  findKey?_eq_some.mpr ⟨inside, same.symm⟩

theorem find?_setAll_of_none (missing : source.find? name = none) :
    (bag.setAll source.members).find? name = bag.find? name := by
  refine (findKey?_setAll_members bag source (Text.lower name)).trans ?_
  rw [show source.findKey? (Text.lower name) = none from missing]
  rfl

theorem find?_setAll_of_some {property : Property} (found : source.find? name = some property) :
    (bag.setAll source.members).find? name =
      Property.merge (bag.find? name) (property.name, property.value) := by
  refine (findKey?_setAll_members bag source (Text.lower name)).trans ?_
  rw [show source.findKey? (Text.lower name) = some property from found]
  rfl

theorem value_merge (old : Option Property) (member : String × Json) :
    (Property.merge old member).map Property.value =
      if Json.sameOrMissing (old.map Property.value) (some member.2)
      then old.map Property.value else some member.2 := by
  cases old with
  | none => rfl
  | some property =>
      change some (property.take member.2).value =
        if property.value.same member.2 then some property.value else some member.2
      rw [Property.take]
      split <;> rfl

theorem name_merge (old : Option Property) (member : String × Json) :
    (Property.merge old member).map Property.name = some ((old.map Property.name).getD member.1) := by
  cases old with
  | none => rfl
  | some property =>
      simp only [Property.merge, Property.take, Option.map_some, Option.getD_some]
      split <;> rfl

theorem value?_setAll_of_agree (agree : bag.AgreeOn source name) :
    (bag.setAll source.members).value? name = bag.value? name := by
  rw [AgreeOn] at agree
  cases found : source.find? name with
  | none => rw [value?, find?_setAll_of_none found, value?]
  | some property =>
      rw [value?, find?_setAll_of_some found, value_merge]
      rw [show source.value? name = some property.value by rw [value?, found]; rfl] at agree
      exact if_pos agree

theorem value?_setAll_of_differ (differ : ¬bag.AgreeOn source name)
    (present : (source.value? name).isSome) :
    (bag.setAll source.members).value? name = source.value? name := by
  obtain ⟨value, read⟩ := Option.isSome_iff_exists.mp present
  obtain ⟨property, found, rfl⟩ := Option.map_eq_some_iff.mp read
  rw [AgreeOn, read] at differ
  rw [value?, find?_setAll_of_some found, value_merge, read]
  exact if_neg differ

theorem agreeOn_setAll (present : (source.value? name).isSome) :
    (bag.setAll source.members).AgreeOn source name := by
  by_cases agree : bag.AgreeOn source name
  · rwa [AgreeOn, value?_setAll_of_agree agree]
  · exact agreeOn_of_eq (value?_setAll_of_differ agree present)

theorem merges_setAll (bag source : Bag) : bag.Merges source (bag.setAll source.members) where
  reads property inside name same := by
    have read : source.value? name = some property.value :=
      (source.value?_congr same).trans (value?_of_mem inside)
    have agree : (bag.setAll source.members).AgreeOn source name :=
      agreeOn_setAll (Option.isSome_iff_exists.mpr ⟨_, read⟩)
    rw [AgreeOn, read, Json.sameOrMissing_some] at agree
    obtain ⟨value, found, equal⟩ := (Option.any_eq_true _ _).mp agree
    exact ⟨value, found, equal, Json.eq_of_same equal⟩
  kept name agree := value?_setAll_of_agree agree
  changed name present differ := value?_setAll_of_differ differ present
  others name missing := find?_setAll_of_none (Option.map_eq_none_iff.mp missing)
  spelling property inside := by
    have there := find?_of_mem inside rfl
    cases found : source.find? property.name with
    | none => rw [find?_setAll_of_none found, there, Option.map_some]
    | some other =>
        rw [find?_setAll_of_some found, name_merge, there, Option.map_some, Option.getD_some]
  new property inside missing := by
    rw [find?_setAll_of_some (find?_of_mem inside rfl), Option.map_eq_none_iff.mp missing]
    rfl

theorem newNames_setAll (bag source : Bag) :
    (bag.setAll source.members).newNames source.members = [] := by
  refine List.map_eq_nil_iff.mpr (List.filter_eq_nil_iff.mpr fun member inside => ?_)
  obtain ⟨property, there, rfl⟩ := List.mem_map.mp inside
  have read := value?_of_mem there
  have agree : (bag.setAll source.members).AgreeOn source property.name :=
    agreeOn_setAll (Option.isSome_iff_exists.mpr ⟨_, read⟩)
  rw [AgreeOn, read] at agree
  simp [agree]

theorem setAll_of_newNames (named : ∀ member ∈ members, member.1 ≠ "")
    (nothing : bag.newNames members = []) : bag.setAll members = bag := by
  induction members with
  | nil => rfl
  | cons first rest ih =>
      obtain ⟨nonempty, named⟩ := List.forall_mem_cons.mp named
      rw [newNames_cons nonempty] at nothing
      split at nothing
      · cases nothing
      · rename_i unchanged
        have same : (bag.set first.1 first.2).1 = bag :=
          Document.bag_set_unchanged (Bool.eq_false_iff.mpr unchanged)
        refine Eq.trans ?_ (ih named nothing)
        rw [setAll, List.foldl_cons, same]
        rfl

end Bag

namespace Document

variable {document : Document} {members : List (String × Json)} {source : Bag}

def copyMember (state : Document × Nat) (member : String × Json) : Document × Nat :=
  ((state.1.set member.1 member.2).1,
    state.2 + if (state.1.bag.set member.1 member.2).2 then 1 else 0)

theorem copyFrom_eq_foldl (document : Document) (source : Bag) :
    document.copyFrom source = source.members.foldl copyMember (document, 0) := by
  unfold copyFrom
  congr 1
  funext state member
  rw [copyMember, ← set_flag]
  dsimp only
  split <;> rename_i found <;> rw [found]
  · rfl
  · rfl

theorem foldl_copyMember (named : ∀ member ∈ members, member.1 ≠ "")
    (apart : members.Pairwise fun a b => Text.lower a.1 ≠ Text.lower b.1) (document : Document)
    (count : Nat) :
    members.foldl copyMember (document, count) =
      ({ document with
          bag := document.bag.setAll members
          notices := document.notices.postAll (document.bag.newNames members) },
        count + (document.bag.newNames members).length) := by
  induction members generalizing document count with
  | nil => rfl
  | cons first rest ih =>
      obtain ⟨nonempty, named⟩ := List.forall_mem_cons.mp named
      obtain ⟨different, apart⟩ := List.pairwise_cons.mp apart
      have posted : document.bag.newNames (first :: rest) =
          (if (document.bag.set first.1 first.2).2 then [first.1] else []) ++
            (document.bag.set first.1 first.2).1.newNames rest := by
        rw [Bag.newNames_set different, Bag.newNames_cons nonempty]
        split <;> rfl
      rw [List.foldl_cons, copyMember, set_eq, ih named apart, posted, Mailbox.postAll_append,
        List.length_append]
      refine Prod.ext rfl ?_
      dsimp only
      split <;> simp only [List.length_cons, List.length_nil] <;> omega

theorem copyFrom_setAll (document : Document) (source : Bag) :
    document.copyFrom source =
      ({ document with
          bag := document.bag.setAll source.members
          notices := document.notices.postAll (document.bag.newNames source.members) },
        (document.bag.newNames source.members).length) := by
  rw [copyFrom_eq_foldl, foldl_copyMember source.members_named source.members_apart, Nat.zero_add]

theorem copyFrom_again (document : Document) (source : Bag) :
    (document.copyFrom source).1.copyFrom source = ((document.copyFrom source).1, 0) := by
  simp only [copyFrom_setAll, Bag.newNames_setAll,
    Bag.setAll_of_newNames source.members_named (Bag.newNames_setAll document.bag source),
    Mailbox.postAll, List.foldl_nil, List.length_nil]

/-- Copying from a bag merges it into the bag of a document, announces and counts the properties whose
values were not there, in the order of the bag, and leaves nothing to copy. A bag that is copied back
gives each of its names the value from before, whatever was changed since. -/
theorem copyFrom_merges (document : Document) (source : Bag) :
    document.bag.Merges source (document.copyFrom source).1.bag ∧
      (document.copyFrom source).1 =
        { document with
          bag := (document.copyFrom source).1.bag
          notices := document.notices.postAll (document.bag.newNames source.members) } ∧
      (document.copyFrom source).2 = (document.bag.newNames source.members).length ∧
      (document.copyFrom source).1.copyFrom source = ((document.copyFrom source).1, 0) ∧
      ∀ (changes : List Change) (name : String) (value : Json),
        document.bag.value? name = some value →
        ∃ restored,
          ((changes.foldl change document).copyFrom document.bag).1.bag.value? name =
            some restored ∧
          restored.same value = true ∧ (value.NoDoubles → restored = value) := by
  refine ⟨?_, ?_, ?_, copyFrom_again document source, fun changes name value there => ?_⟩
  · rw [copyFrom_setAll]
    exact Bag.merges_setAll document.bag source
  · rw [copyFrom_setAll]
  · rw [copyFrom_setAll]
  · obtain ⟨property, inside, same, rfl⟩ := Bag.value?_eq_some.mp there
    rw [copyFrom_setAll]
    exact (Bag.merges_setAll _ document.bag).reads property inside name same.symm

def iconTheme : Bag :=
  ((Bag.empty.set "THEME" (.string "dark")).1.set "icons" (.boolean true)).1

theorem copyFrom_merges_themes :
    (lightTheme.copyFrom iconTheme).1.bag.members =
        [("icons", .boolean true), ("size", .integer 1), ("theme", .string "dark")] ∧
      (lightTheme.copyFrom iconTheme).1.notices.messages = ["icons", "THEME"] ∧
      (lightTheme.copyFrom iconTheme).2 = 2 ∧
      (((lightTheme.change (.remove "size")).copyFrom lightTheme.bag).1.bag.value? "SIZE" =
        some (.integer 1)) := by
  obtain ⟨-, posted, count, -, restores⟩ := copyFrom_merges lightTheme iconTheme
  have names : lightTheme.bag.newNames iconTheme.members = ["icons", "THEME"] := by decide +kernel
  rw [names] at posted count
  refine ⟨?_, ?_, count, ?_⟩
  · rfl
  · rw [posted]
    rfl
  · obtain ⟨restored, found, -, same⟩ := restores [.remove "size"] "SIZE" (.integer 1) rfl
    rw [same trivial] at found
    exact found

def settledZero : Document :=
  .ofBag ⟨"/s.json"⟩ (Bag.empty.set "a" (.number (.double (.zero false)))).1 false

def unsettledZero : Bag :=
  (Bag.empty.set "a" (.number (.double (.zero true)))).1

/-- A zero stays as it is when the other zero is copied over it. -/
theorem not_copyFrom_reads : ¬∀ (document : Document) (source : Bag),
    ∀ property ∈ source.properties,
      (document.copyFrom source).1.bag.value? property.name = some property.value := by
  intro reads
  have read := reads settledZero unsettledZero ⟨"a", .number (.double (.zero true))⟩
    List.mem_cons_self
  have kept : (settledZero.copyFrom unsettledZero).1.bag.value? "a" =
      some (.number (.double (.zero false))) := rfl
  cases kept.symm.trans read

end Document
end Waymark
