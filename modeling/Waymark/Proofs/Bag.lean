import Waymark.Bag
import Waymark.Proofs.Json.Held
/-!
# Bags and their documents

What setting a value does to the properties of a bag, and why a bag comes back from its document.
-/

namespace Waymark.Bag

theorem mem_put {name : String} {value : Json} {property : Property} {properties : List Property}
    (member : property ∈ put name value properties) :
    property ∈ properties ∨ property.key = Text.lower name ∧ property.value = value := by
  induction properties with
  | nil =>
      rw [List.mem_singleton.mp member]
      exact .inr ⟨rfl, rfl⟩
  | cons first rest ih =>
      unfold put at member
      split at member
      · rcases List.mem_cons.mp member with here | there
        · exact .inr ⟨here ▸ rfl, here ▸ rfl⟩
        · exact .inl there
      split at member
      · rename_i same
        rcases List.mem_cons.mp member with here | there
        · exact .inr ⟨here ▸ same.symm, here ▸ rfl⟩
        · exact .inl (List.mem_cons_of_mem _ there)
      · rcases List.mem_cons.mp member with here | there
        · exact .inl (here ▸ List.mem_cons_self)
        · exact (ih there).imp_left (List.mem_cons_of_mem _)

theorem exists_mem_put (name : String) (value : Json) (properties : List Property) :
    ∃ property ∈ put name value properties,
      property.key = Text.lower name ∧ property.value = value := by
  induction properties with
  | nil => exact ⟨⟨name, value⟩, List.mem_singleton.mpr rfl, rfl, rfl⟩
  | cons first rest ih =>
      unfold put
      split
      · exact ⟨⟨name, value⟩, List.mem_cons_self, rfl, rfl⟩
      split
      · rename_i same
        exact ⟨_, List.mem_cons_self, same.symm, rfl⟩
      · obtain ⟨property, there, found⟩ := ih
        exact ⟨property, List.mem_cons_of_mem _ there, found⟩

theorem put_perm {name : String} {value : Json} {properties : List Property}
    (new : ∀ property ∈ properties, property.key ≠ Text.lower name) :
    (put name value properties).Perm (⟨name, value⟩ :: properties) := by
  induction properties with
  | nil => exact .refl _
  | cons first rest ih =>
      obtain ⟨other, others⟩ := List.forall_mem_cons.mp new
      unfold put
      split
      · exact .refl _
      · rw [if_neg fun same => other same.symm]
        exact ((ih others).cons first).trans (.swap _ _ _)

variable {bag : Bag}

theorem keysDiffer (bag : Bag) : bag.properties.Pairwise fun a b => a.key ≠ b.key := by
  refine bag.ordered.imp fun {a b} before same => ?_
  rw [same] at before
  exact String.lt_irrefl b.key before

theorem eq_of_key {a b : Property} (inA : a ∈ bag.properties) (inB : b ∈ bag.properties)
    (same : a.key = b.key) : a = b :=
  List.Pairwise.forall_of_forall_of_flip (R := fun a b => a.key = b.key → a = b)
    (fun _ _ _ => rfl) (bag.keysDiffer.imp fun differ same => absurd same differ)
    (bag.keysDiffer.imp fun differ same => absurd same.symm differ) inA inB same

theorem value?_eq_some {name : String} {value : Json} :
    bag.value? name = some value ↔
      ∃ property ∈ bag.properties, property.key = Text.lower name ∧ property.value = value := by
  unfold value? find? findKey?
  rw [Option.map_eq_some_iff]
  constructor
  · rintro ⟨property, found, same⟩
    have key : property.key = Text.lower name := by simpa using List.find?_some found
    exact ⟨property, List.mem_of_find?_eq_some found, key, same⟩
  · rintro ⟨property, member, key, same⟩
    cases found : bag.properties.find? fun property => property.key = Text.lower name with
    | none => exact absurd (decide_eq_true key) (List.find?_eq_none.mp found property member)
    | some other =>
        have otherKey : other.key = Text.lower name := by simpa using List.find?_some found
        have equal := eq_of_key (List.mem_of_find?_eq_some found) member (otherKey.trans key.symm)
        exact ⟨other, rfl, equal ▸ same⟩

theorem value?_set {name : String} {value : Json} (nonempty : name ≠ "")
    (whole : value.NoDoubles) : (bag.set name value).1.value? name = some value := by
  unfold set
  rw [dif_neg nonempty]
  split
  · rename_i present
    obtain ⟨old, found, same⟩ := (Option.any_eq_true _ _).mp present
    rw [found, Json.eq_of_same same whole]
  · exact value?_eq_some.mpr (exists_mem_put name value bag.properties)

theorem mem_set {name : String} {value : Json} {property : Property}
    (member : property ∈ (bag.set name value).1.properties) :
    property ∈ bag.properties ∨ property.key = Text.lower name ∧ property.value = value := by
  unfold set at member
  split at member
  · exact .inl member
  split at member
  · exact .inl member
  · exact mem_put member

theorem forall_value_set (condition : Json → Prop)
    (old : ∀ property ∈ bag.properties, condition property.value) (name : String) {value : Json}
    (new : condition value) : ∀ property ∈ (bag.set name value).1.properties,
      condition property.value := by
  intro property inside
  rcases mem_set inside with there | ⟨-, here⟩
  · exact old property there
  · exact here ▸ new

theorem exists_depth_set {name : String} (nonempty : name ≠ "") (value : Json) :
    ∃ property ∈ (bag.set name value).1.properties, property.value.depth = value.depth := by
  unfold set
  rw [dif_neg nonempty]
  split
  · rename_i present
    obtain ⟨old, found, same⟩ := (Option.any_eq_true _ _).mp present
    obtain ⟨property, inside, -, here⟩ := value?_eq_some.mp found
    exact ⟨property, inside, here ▸ Json.depth_of_same same⟩
  · obtain ⟨property, inside, -, here⟩ := exists_mem_put name value bag.properties
    exact ⟨property, inside, here ▸ rfl⟩

theorem set_perm {name : String} {value : Json} (nonempty : name ≠ "")
    (new : ∀ property ∈ bag.properties, property.key ≠ Text.lower name) :
    (bag.set name value).1.properties.Perm (⟨name, value⟩ :: bag.properties) := by
  have absent : bag.value? name = none := by
    cases found : bag.value? name with
    | none => rfl
    | some old =>
        obtain ⟨property, member, key, -⟩ := value?_eq_some.mp found
        exact absurd key (new property member)
  unfold set
  rw [dif_neg nonempty, absent]
  exact put_perm new

def ofMember (member : String × Json) : Property :=
  ⟨member.1, member.2⟩

theorem members_apart (bag : Bag) :
    bag.members.Pairwise fun a b => Text.lower a.1 ≠ Text.lower b.1 :=
  List.pairwise_map.mpr bag.keysDiffer

theorem members_named (bag : Bag) : ∀ member ∈ bag.members, member.1 ≠ "" := by
  intro member inside
  obtain ⟨property, there, rfl⟩ := List.mem_map.mp inside
  exact bag.named property there

theorem members_ofMember (bag : Bag) : bag.members.map ofMember = bag.properties := by
  simp [members, Function.comp_def, ofMember]

theorem setAll_perm {bag : Bag} {members : List (String × Json)}
    (named : ∀ member ∈ members, member.1 ≠ "")
    (apart : (bag.properties ++ members.map ofMember).Pairwise fun a b => a.key ≠ b.key) :
    (bag.setAll members).properties.Perm (bag.properties ++ members.map ofMember) := by
  induction members generalizing bag with
  | nil => simp [setAll]
  | cons first rest ih =>
      obtain ⟨nonempty, others⟩ := List.forall_mem_cons.mp named
      have new : ∀ property ∈ bag.properties, property.key ≠ Text.lower first.1 :=
        fun property member =>
          (List.pairwise_append.mp apart).2.2 property member (ofMember first) List.mem_cons_self
      have joined : ((bag.set first.1 first.2).1.properties ++ rest.map ofMember).Perm
          (bag.properties ++ (first :: rest).map ofMember) :=
        ((set_perm nonempty new).append_right _).trans List.perm_middle.symm
      have stillApart := (joined.pairwise_iff fun differ => Ne.symm differ).mpr apart
      exact (ih others stillApart).trans joined

theorem setAll_mem {bag : Bag} {members : List (String × Json)} {property : Property}
    (member : property ∈ (bag.setAll members).properties) :
    property ∈ bag.properties ∨ ∃ given ∈ members, property.value = given.2 := by
  induction members generalizing bag with
  | nil => exact .inl member
  | cons first rest ih =>
      rcases ih member with early | ⟨given, inside, same⟩
      · rcases mem_set early with old | ⟨-, new⟩
        · exact .inl old
        · exact .inr ⟨first, List.mem_cons_self, new⟩
      · exact .inr ⟨given, List.mem_cons_of_mem _ inside, same⟩

theorem ext {a b : Bag} (same : a.properties = b.properties) : a = b := by
  cases a
  cases b
  cases same
  rfl

theorem orderMembers_members_perm (bag : Bag) : (Json.orderMembers bag.members).Perm bag.members := by
  refine Json.orderMembers_perm (bag.members_apart.imp fun differ same => ?_)
  exact differ (congrArg Text.lower same)

theorem ofMembers_members (bag : Bag) : ofMembers bag.members = bag := by
  have sorted := bag.orderMembers_members_perm
  have properties : ((Json.orderMembers bag.members).map ofMember).Perm bag.properties :=
    bag.members_ofMember ▸ sorted.map ofMember
  have named : ∀ member ∈ Json.orderMembers bag.members, member.1 ≠ "" :=
    fun member inside => bag.members_named member (sorted.mem_iff.mp inside)
  have apart := (properties.pairwise_iff fun differ => Ne.symm differ).mpr bag.keysDiffer
  have all : (ofMembers bag.members).properties.Perm bag.properties :=
    (@setAll_perm empty _ named apart).trans properties
  exact ext (all.eq_of_pairwise (fun a b _ _ ab ba => absurd ba (String.lt_asymm ab))
    (ofMembers bag.members).ordered bag.ordered)

def Held (bag : Bag) : Prop :=
  ∀ property ∈ bag.properties, property.value.Held (Json.maximumDepth - 1)

def NoDoubles (bag : Bag) : Prop :=
  ∀ property ∈ bag.properties, property.value.NoDoubles

theorem held_empty : empty.Held := by
  simp [Held, empty]

theorem noDoubles_empty : empty.NoDoubles := by
  simp [NoDoubles, empty]

theorem Held.set (held : bag.Held) (name : String) {value : Json}
    (new : value.Held (Json.maximumDepth - 1)) : (bag.set name value).1.Held :=
  forall_value_set (Json.Held (Json.maximumDepth - 1)) held name new

theorem NoDoubles.set (whole : bag.NoDoubles) (name : String) {value : Json}
    (new : value.NoDoubles) : (bag.set name value).1.NoDoubles :=
  forall_value_set Json.NoDoubles whole name new

theorem held_of_ofBytes {bytes : ByteArray} {bag : Bag} (read : ofBytes bytes = .ok bag) :
    bag.Held := by
  obtain ⟨tree, sound, taken⟩ := Json.decodeGlyphs_sound read
  obtain ⟨members, ok, rfl⟩ := of_map_ok taken
  intro property inside
  rcases setAll_mem inside with old | ⟨given, there, same⟩
  · exact absurd old List.not_mem_nil
  · exact same ▸ Json.Decoder.mapping_held sound ok given (Json.mem_orderMembers there)

def reread (bag : Bag) : Bag where
  properties := bag.properties.map fun property => { property with value := property.value.reread }
  ordered := by simpa only [List.pairwise_map, Property.key] using bag.ordered
  named := by simpa using bag.named

@[simp] theorem names_reread (bag : Bag) : bag.reread.names = bag.names := by
  simp [names, reread]

theorem members_reread (bag : Bag) : bag.reread.members = Json.rereadMembers bag.members := by
  simp [members, reread, Json.rereadMembers_eq]

theorem reread_of_noDoubles (whole : bag.NoDoubles) : bag.reread = bag := by
  refine ext ((List.map_congr_left fun property inside => ?_).trans (List.map_id bag.properties))
  rw [Json.reread_of_noDoubles (whole property inside)]
  rfl

/-- Values as they can come from any document, nested as deep as they like. -/
def Formed (bag : Bag) : Prop :=
  ∀ property ∈ bag.properties, property.value.Fits ∧ property.value.Canonical

theorem Held.formed (held : bag.Held) : bag.Formed :=
  fun property inside => ⟨(held property inside).fits, (held property inside).canonical⟩

theorem Formed.fits_members (formed : bag.Formed) :
    Json.EveryNumberMembers Number.Fits bag.members := by
  refine Json.everyNumberMembers_iff.mpr fun member inside => ?_
  obtain ⟨property, there, rfl⟩ := List.mem_map.mp inside
  exact (formed property there).1

theorem Formed.canonical_reread (formed : bag.Formed) :
    Json.CanonicalMembers bag.reread.members := by
  rw [members_reread]
  refine Json.canonicalMembers_reread _ (Json.canonicalMembers_iff.mpr fun member inside => ?_)
  obtain ⟨property, there, rfl⟩ := List.mem_map.mp inside
  exact (formed property there).2

theorem depth_reread_le {bound : Nat} : Json.depthMembers bag.reread.members ≤ bound ↔
    ∀ property ∈ bag.properties, property.value.depth ≤ bound := by
  rw [members_reread, Json.depthMembers_reread, Json.depthMembers_le_iff]
  simp [members]

/-- A document is read as the object of its members, each with the room that is left. -/
theorem ofBytes_write_eq {spacing : Json.Spacing} (blank : spacing.Blank) (formed : bag.Formed) :
    ofBytes (String.ofList (Json.write spacing 0 bag.toJson)).toUTF8 =
      (Json.Decoder.jsonMembers
        (Json.Tree.withinMembers (Json.maximumDepth - 1) bag.reread.members)).map ofMembers := by
  rw [ofBytes, Json.decodeBytes_write decoder blank (show bag.toJson.Fits from formed.fits_members),
    toJson, Json.reread, ← members_reread]
  rw [decoder, Json.Tree.within, Json.container_of_room (by decide), Json.Decoder.mapping,
    Json.Decoder.members_json]

theorem ofBytes_write_shallow {spacing : Json.Spacing} (blank : spacing.Blank) (held : bag.Held) :
    ofBytes (String.ofList (Json.write spacing 0 bag.toJson)).toUTF8 = .ok bag.reread := by
  have shallow : Json.depthMembers bag.reread.members ≤ Json.maximumDepth - 1 :=
    depth_reread_le.mpr fun property inside => (held property inside).shallow
  rw [ofBytes_write_eq blank held.formed, Json.Tree.withinMembers_of_shallow _ _ shallow,
    Json.Decoder.jsonMembers_ofMembers _ held.formed.canonical_reread]
  exact congrArg Except.ok bag.reread.ofMembers_members

theorem ofBytes_write {spacing : Json.Spacing} (blank : spacing.Blank) {bag : Bag} (held : bag.Held)
    (whole : bag.NoDoubles) :
    ofBytes (String.ofList (Json.write spacing 0 bag.toJson)).toUTF8 = .ok bag := by
  rw [ofBytes_write_shallow blank held, reread_of_noDoubles whole]

theorem ofBytes_write_deep {spacing : Json.Spacing} (blank : spacing.Blank) (formed : bag.Formed)
    (deep : ∃ property ∈ bag.properties, Json.maximumDepth ≤ property.value.depth) :
    ofBytes (String.ofList (Json.write spacing 0 bag.toJson)).toUTF8 = .error .malformed := by
  have beyond : Json.maximumDepth - 1 < Json.depthMembers bag.reread.members := by
    rw [← Nat.not_le, depth_reread_le]
    obtain ⟨property, inside, depth⟩ := deep
    exact fun shallow => absurd (Nat.le_trans depth (shallow property inside)) (by decide)
  rw [ofBytes_write_eq blank formed,
    Json.Decoder.jsonMembers_within_of_deep _ _ formed.canonical_reread beyond]
  rfl

end Waymark.Bag
