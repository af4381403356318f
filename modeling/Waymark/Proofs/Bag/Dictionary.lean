import Mathlib.Logic.Function.Basic
import Waymark.Proofs.Bag.Difference
/-!
# Bags as finite maps

A bag stands for a finite map from lower-cased names to properties. Whatever is done to a bag can be
done to the map instead, which knows no order: the answers are the same, and the properties of the
bag are those of the map, in the order of the lower-cased names.
-/

namespace Waymark

/-- What can be done to a bag. Another bag that replaces it was itself built from nothing, and bytes
that hold no bag leave it as it is. -/
inductive Bag.Change where
  | set (name : String) (value : Json)
  | remove (name : String)
  | replaceWith (changes : List Bag.Change)
  | read (bytes : ByteArray)

abbrev Dictionary :=
  String → Option Property

namespace Dictionary

def empty : Dictionary :=
  fun _ => none

def set (dictionary : Dictionary) (name : String) (value : Json) : Dictionary × Bool :=
  let key := Text.lower name
  if name = "" then (dictionary, false)
  else
    match dictionary key with
    | none => (Function.update dictionary key (some ⟨name, value⟩), true)
    | some property =>
        if property.value.same value then (dictionary, false)
        else (Function.update dictionary key (some { property with value }), true)

def remove (dictionary : Dictionary) (name : String) : Dictionary × Bool :=
  let key := Text.lower name
  (Function.update dictionary key none, (dictionary key).isSome)

def setAll (dictionary : Dictionary) (members : List (String × Json)) : Dictionary :=
  members.foldl (fun dictionary member => (dictionary.set member.1 member.2).1) dictionary

mutual

def change (dictionary : Dictionary) : Bag.Change → Dictionary
  | .set name value => (dictionary.set name value).1
  | .remove name => (dictionary.remove name).1
  | .replaceWith changes => changeAll empty changes
  | .read bytes =>
      match Json.decodeBytes (Json.Decoder.mapping Json.Decoder.json) bytes with
      | .ok members => empty.setAll (Json.orderMembers members)
      | .error _ => dictionary

def changeAll (dictionary : Dictionary) : List Bag.Change → Dictionary
  | [] => dictionary
  | first :: rest => changeAll (change dictionary first) rest

end

def Coherent (dictionary : Dictionary) : Prop :=
  ∀ key property, dictionary key = some property → property.key = key ∧ property.name ≠ ""

end Dictionary

namespace Bag

mutual

def change (bag : Bag) : Change → Bag
  | .set name value => (bag.set name value).1
  | .remove name => (bag.remove name).1
  | .replaceWith changes => (bag.replaceWith (changeAll empty changes)).1
  | .read bytes =>
      match ofBytes bytes with
      | .ok other => other
      | .error _ => bag

def changeAll (bag : Bag) : List Change → Bag
  | [] => bag
  | first :: rest => changeAll (change bag first) rest

end

end Bag

namespace Dictionary

variable {dictionary : Dictionary}

theorem coherent_empty : empty.Coherent :=
  nofun

theorem Coherent.update (coherent : dictionary.Coherent) {name key : String} (nonempty : name ≠ "")
    (value : Json) (same : Text.lower name = key) :
    Coherent (Function.update dictionary key (some ⟨name, value⟩)) := by
  intro other property found
  by_cases here : other = key
  · rw [here, Function.update_self] at found
    cases found
    exact ⟨same.trans here.symm, nonempty⟩
  · rw [Function.update_of_ne here] at found
    exact coherent other property found

theorem Coherent.set (coherent : dictionary.Coherent) (name : String) (value : Json) :
    (dictionary.set name value).1.Coherent := by
  unfold Dictionary.set
  dsimp only
  split
  · exact coherent
  rename_i nonempty
  split
  · exact coherent.update nonempty value rfl
  · rename_i property found
    split
    · exact coherent
    · obtain ⟨key, named⟩ := coherent _ property found
      exact coherent.update named value key

theorem Coherent.remove (coherent : dictionary.Coherent) (name : String) :
    (dictionary.remove name).1.Coherent := by
  intro key property found
  simp only [Dictionary.remove] at found
  by_cases here : key = Text.lower name
  · rw [here, Function.update_self] at found
    cases found
  · rw [Function.update_of_ne here] at found
    exact coherent key property found

theorem Coherent.setAll (coherent : dictionary.Coherent) (members : List (String × Json)) :
    (dictionary.setAll members).Coherent := by
  induction members generalizing dictionary with
  | nil => exact coherent
  | cons member rest ih => exact ih (coherent.set member.1 member.2)

mutual

theorem Coherent.change {dictionary : Dictionary} (coherent : dictionary.Coherent)
    (change : Bag.Change) : (dictionary.change change).Coherent := by
  cases change with
  | set name value => exact coherent.set name value
  | remove name => exact coherent.remove name
  | replaceWith changes => exact coherent_empty.changeAll changes
  | read bytes =>
      unfold Dictionary.change
      split
      · exact coherent_empty.setAll _
      · exact coherent

theorem Coherent.changeAll {dictionary : Dictionary} (coherent : dictionary.Coherent)
    (changes : List Bag.Change) : (dictionary.changeAll changes).Coherent := by
  cases changes with
  | nil => exact coherent
  | cons first rest => exact (coherent.change first).changeAll rest

end

end Dictionary

namespace Bag

variable {bag : Bag}

theorem findKey?_eq_some {key : String} {property : Property} :
    bag.findKey? key = some property ↔ property ∈ bag.properties ∧ property.key = key := by
  constructor
  · intro found
    exact ⟨List.mem_of_find?_eq_some found, by simpa using List.find?_some found⟩
  · rintro ⟨inside, same⟩
    cases found : bag.findKey? key with
    | none => exact absurd (decide_eq_true same) (List.find?_eq_none.mp found property inside)
    | some other =>
        have otherKey : other.key = key := by simpa using List.find?_some found
        rw [eq_of_key (List.mem_of_find?_eq_some found) inside (otherKey.trans same.symm)]

theorem findKey?_eq_none {key : String} :
    bag.findKey? key = none ↔ ∀ property ∈ bag.properties, property.key ≠ key := by
  simp [findKey?]

theorem find?_value (bag : Bag) (name : String) :
    bag.value? name = (bag.findKey? (Text.lower name)).map Property.value :=
  rfl

variable {name : String} {value : Json}

theorem mem_put_of_mem {property : Property} {properties : List Property}
    (ordered : properties.Pairwise fun a b => a.key < b.key) (inside : property ∈ properties)
    (same : property.key = Text.lower name) :
    { property with value } ∈ put name value properties := by
  induction properties with
  | nil => cases inside
  | cons first rest ih =>
      obtain ⟨behind, others⟩ := List.pairwise_cons.mp ordered
      unfold put
      rcases List.mem_cons.mp inside with here | there
      · have level : ¬Text.lower name < property.key := by
          rw [same]
          exact String.lt_irrefl _
        rw [← here, if_neg level, if_pos same.symm]
        exact List.mem_cons_self
      · have before : first.key < Text.lower name := by
          rw [← same]
          exact behind property there
        have differ : Text.lower name ≠ first.key := by
          intro equal
          rw [equal] at before
          exact String.lt_irrefl first.key before
        rw [if_neg (String.lt_asymm before), if_neg differ]
        exact List.mem_cons_of_mem _ (ih others there)

theorem findKey?_of_put {next : Bag} (changed : next.properties = put name value bag.properties)
    {property : Property} (inside : property ∈ put name value bag.properties)
    (same : property.key = Text.lower name) :
    next.findKey? = Function.update bag.findKey? (Text.lower name) (some property) := by
  funext key
  by_cases here : key = Text.lower name
  · rw [here, Function.update_self, findKey?_eq_some, changed]
    exact ⟨inside, same⟩
  · rw [Function.update_of_ne here]
    refine Option.ext fun other => ?_
    rw [findKey?_eq_some, findKey?_eq_some, changed]
    exact and_congr_left fun otherKey => mem_put_of_ne (otherKey ▸ here)

/-- Setting a value is the same for the map of a bag. -/
theorem findKey?_set (bag : Bag) (name : String) (value : Json) :
    Dictionary.set bag.findKey? name value =
      ((bag.set name value).1.findKey?, (bag.set name value).2) := by
  unfold set Dictionary.set
  rw [find?_value]
  by_cases nonempty : name = ""
  · simp only [nonempty, dif_pos, if_pos]
  rw [dif_neg nonempty, if_neg nonempty]
  cases found : bag.findKey? (Text.lower name) with
  | none =>
      have new := (@put_perm name value _ (findKey?_eq_none.mp found)).mem_iff.mpr
        List.mem_cons_self
      simp only [Option.map_none, Option.any_none, Bool.false_eq_true, if_false]
      exact Prod.ext (findKey?_of_put rfl new rfl).symm rfl
  | some property =>
      obtain ⟨inside, same⟩ := findKey?_eq_some.mp found
      have old := @mem_put_of_mem name value _ _ bag.ordered inside same
      simp only [Option.map_some, Option.any_some]
      split
      · rfl
      · exact Prod.ext (findKey?_of_put rfl old same).symm rfl

theorem findKey?_remove (bag : Bag) (name : String) :
    Dictionary.remove bag.findKey? name =
      ((bag.remove name).1.findKey?, (bag.remove name).2) := by
  refine Prod.ext (funext fun key => ?_) rfl
  simp only [Dictionary.remove]
  refine Option.ext fun property => ?_
  rw [findKey?_eq_some]
  simp only [remove, List.mem_filter, decide_eq_true_eq]
  by_cases here : key = Text.lower name
  · rw [here, Function.update_self]
    refine iff_of_false (Option.some_ne_none property).symm ?_
    rintro ⟨⟨-, other⟩, same⟩
    exact other same
  · rw [Function.update_of_ne here, findKey?_eq_some]
    constructor
    · rintro ⟨inside, same⟩
      exact ⟨⟨inside, same ▸ here⟩, same⟩
    · rintro ⟨⟨inside, -⟩, same⟩
      exact ⟨inside, same⟩

theorem findKey?_setAll (bag : Bag) (members : List (String × Json)) :
    Dictionary.setAll bag.findKey? members = (bag.setAll members).findKey? := by
  induction members generalizing bag with
  | nil => rfl
  | cons member rest ih =>
      refine Eq.trans ?_ (ih (bag.set member.1 member.2).1)
      simp only [Dictionary.setAll, List.foldl_cons, findKey?_set]

theorem ofBytes_eq (bytes : ByteArray) : ofBytes bytes =
    (Json.decodeBytes (Json.Decoder.mapping Json.Decoder.json) bytes).map ofMembers := by
  unfold ofBytes Json.decodeBytes Json.decodeGlyphs
  generalize Json.Tree.ofGlyphs (Json.Glyph.ofBytes bytes) = parsed
  obtain ⟨tree, more⟩ := parsed
  simp only [decoder, bind, Except.bind]
  cases Json.Decoder.mapping Json.Decoder.json tree with
  | error fault => rfl
  | ok members => cases more <;> rfl

mutual

theorem findKey?_change (bag : Bag) (change : Change) :
    Dictionary.change bag.findKey? change = (bag.change change).findKey? := by
  cases change with
  | set name value => exact congrArg Prod.fst (findKey?_set bag name value)
  | remove name => exact congrArg Prod.fst (findKey?_remove bag name)
  | replaceWith changes => exact findKey?_changeAll empty changes
  | read bytes =>
      simp only [Dictionary.change, Bag.change, ofBytes_eq]
      cases Json.decodeBytes (Json.Decoder.mapping Json.Decoder.json) bytes with
      | error fault => rfl
      | ok members => exact findKey?_setAll empty (Json.orderMembers members)

theorem findKey?_changeAll (bag : Bag) (changes : List Change) :
    Dictionary.changeAll bag.findKey? changes = (bag.changeAll changes).findKey? := by
  cases changes with
  | nil => rfl
  | cons first rest =>
      simp only [Dictionary.changeAll, Bag.changeAll]
      rw [findKey?_change, findKey?_changeAll]

end

/-- What it means to set a value under a name. A property that is there keeps its spelling. -/
structure Sets (bag : Bag) (name : String) (value : Json) : Prop where
  reads : ∀ other, Text.lower other = Text.lower name →
    ∃ stored, (bag.set name value).1.value? other = some stored ∧ stored.plain = value.plain
  spelling : ((bag.set name value).1.find? name).map Property.name =
    some (((bag.find? name).map Property.name).getD name)
  others : ∀ other, Text.lower other ≠ Text.lower name →
    (bag.set name value).1.find? other = bag.find? other
  answer : (bag.set name value).2 = true ↔
    ∀ old, bag.value? name = some old → old.plain ≠ value.plain

theorem findKey?_set_of_ne {key : String} (different : key ≠ Text.lower name) :
    (bag.set name value).1.findKey? key = bag.findKey? key := by
  have same := congrFun (congrArg Prod.fst (findKey?_set bag name value)) key
  refine same.symm.trans ?_
  unfold Dictionary.set
  dsimp only
  split
  · rfl
  split
  · exact Function.update_of_ne different _ _
  · split
    · rfl
    · exact Function.update_of_ne different _ _

theorem spelling_set (nonempty : name ≠ "") :
    ((bag.set name value).1.find? name).map Property.name =
      some (((bag.find? name).map Property.name).getD name) := by
  have same := congrFun (congrArg Prod.fst (findKey?_set bag name value)) (Text.lower name)
  rw [find?, find?]
  refine (congrArg (Option.map Property.name) same.symm).trans ?_
  unfold Dictionary.set
  dsimp only
  rw [if_neg nonempty]
  cases found : bag.findKey? (Text.lower name) with
  | none => simp
  | some property =>
      dsimp only
      split
      · simp [found]
      · simp

theorem sets (bag : Bag) (nonempty : name ≠ "") (value : Json) : bag.Sets name value where
  reads := by
    intro other same
    have set := @sameOrMissing_set bag name nonempty value
    rw [Json.sameOrMissing_some, ← value?_congr _ same] at set
    obtain ⟨stored, found, equal⟩ := (Option.any_eq_true _ _).mp set
    exact ⟨stored, found, Json.same_iff.mp equal⟩
  spelling := spelling_set nonempty
  others := fun other different => findKey?_set_of_ne different
  answer := by
    unfold set
    rw [dif_neg nonempty]
    split
    · rename_i present
      obtain ⟨old, found, equal⟩ := (Option.any_eq_true _ _).mp present
      exact iff_of_false Bool.false_ne_true fun all => all old found (Json.same_iff.mp equal)
    · rename_i absent
      refine iff_of_true rfl fun old found equal => absent ?_
      exact (Option.any_eq_true _ _).mpr ⟨old, found, Json.same_iff.mpr equal⟩

structure Removes (bag : Bag) (name : String) : Prop where
  gone : ∀ other, Text.lower other = Text.lower name → (bag.remove name).1.find? other = none
  others : ∀ other, Text.lower other ≠ Text.lower name →
    (bag.remove name).1.find? other = bag.find? other
  answer : (bag.remove name).2 = true ↔ ∃ property ∈ bag.properties, property.key = Text.lower name

theorem removes (bag : Bag) (name : String) : bag.Removes name := by
  have same := congrArg Prod.fst (findKey?_remove bag name)
  simp only [Dictionary.remove] at same
  exact {
    gone := by
      intro other equal
      rw [find?, ← same, equal, Function.update_self]
    others := by
      intro other different
      rw [find?, find?, ← same, Function.update_of_ne different]
    answer := by
      simp [remove, contains, find?, findKey?] }

/-- However a bag came about, it holds what the finite map holds that the same changes lead to: under
each lower-cased name at most one property, whose name that is, in the order of these names. Setting
and removing change the one property of a name, in whatever spelling it is given. -/
theorem changed_isMap (changes : List Change) :
    let bag := empty.changeAll changes
    let dictionary := Dictionary.empty.changeAll changes
    bag.findKey? = dictionary ∧ dictionary.Coherent ∧
      (∀ property, property ∈ bag.properties ↔ dictionary property.key = some property) ∧
      (bag.properties.Pairwise fun a b => Text.lower a.name < Text.lower b.name) ∧
      (∀ name other, Text.lower name = Text.lower other → bag.find? name = bag.find? other) ∧
      (∀ value, bag.set "" value = (bag, false)) ∧
      (∀ name value, name ≠ "" → bag.Sets name value) ∧
      ∀ name, bag.Removes name := by
  intro bag dictionary
  have same : dictionary = bag.findKey? := findKey?_changeAll empty changes
  refine ⟨same.symm, Dictionary.coherent_empty.changeAll changes, fun property => ?_, bag.ordered,
    fun name other equal => congrArg bag.findKey? equal, fun value => ?_, ?_, bag.removes⟩
  · rw [same, findKey?_eq_some, and_iff_left rfl]
  · rw [set, dif_pos rfl]
  · exact fun name value nonempty => bag.sets nonempty value

end Bag
end Waymark
