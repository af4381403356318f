import Mathlib.Data.List.Induction
import Waymark.Proofs.Bag.Merged
import Waymark.Proofs.Text.Bytes
/-!
# Documents with several spellings of a name

A document can name a property in several spellings. Read as a bag it has one property for all of
them, which has the first spelling, in the order of bytes, and the value of the last. The order of
the members decides nothing, except among members with exactly one name.
-/

namespace Waymark

namespace Json

variable {α : Type} {name : String} {value : α} {members : List (String × α)}

def lastOf? (members : List (String × α)) (name : String) : Option α :=
  (members.reverse.find? fun member => member.1 = name).map Prod.snd

theorem lastOf?_concat (members : List (String × α)) (member : String × α) (name : String) :
    lastOf? (members ++ [member]) name =
      if member.1 = name then some member.2 else lastOf? members name := by
  rw [lastOf?, List.reverse_append, List.reverse_singleton, List.singleton_append, List.find?_cons]
  by_cases here : member.1 = name <;> simp [here, lastOf?]

theorem mem_insertMember_iff {other : String} {old : α} (ordered : MembersOrdered members) :
    (other, old) ∈ insertMember name value members ↔
      if name = other then old = value else (other, old) ∈ members := by
  induction members with
  | nil => grind [insertMember]
  | cons first rest ih =>
      obtain ⟨behind, later⟩ := List.pairwise_cons.mp ordered
      -- Before and at its place the name is not among the members behind.
      have absent : ¬first.1 < name → (name, old) ∉ rest := fun notBehind inside =>
        notBehind (behind _ inside)
      unfold insertMember
      split
      · rename_i before
        have differ : name ≠ first.1 := fun same => String.lt_irrefl first.1 (same ▸ before)
        have absent := absent (String.lt_asymm before)
        grind
      split
      · rename_i same
        have absent := absent (same ▸ String.lt_irrefl name)
        grind
      · rw [List.mem_cons, ih later, List.mem_cons]
        grind

theorem mem_orderMembers_iff :
    (name, value) ∈ orderMembers members ↔ lastOf? members name = some value := by
  induction members using List.reverseRecOn with
  | nil => simp [orderMembers, lastOf?]
  | append_singleton members member ih =>
      have ordered := orderMembers_ordered members
      rw [lastOf?_concat, orderMembers, List.foldl_append, List.foldl_cons, List.foldl_nil,
        ← orderMembers, mem_insertMember_iff ordered, ih]
      split
      · rw [Option.some_inj, eq_comm]
      · rfl

theorem lastOf?_isSome : (lastOf? members name).isSome ↔ name ∈ members.map Prod.fst := by
  simp [lastOf?, List.mem_map]

variable {members : List (String × Json)} {key name : String} {value : Json}

def Spells (members : List (String × Json)) (key name : String) : Prop :=
  name ∈ members.map Prod.fst ∧ Text.lower name = key

/-- From this spelling of a name on, all spellings stand for equal values. -/
def Steady (members : List (String × Json)) (name : String) : Prop :=
  ∀ later, Spells members (Text.lower name) later → Text.bytes name ≤ Text.bytes later →
    sameOrMissing (lastOf? members name) (lastOf? members later) = true

def spellings (members : List (String × Json)) (key : String) : List (String × Json) :=
  (orderMembers members).filter fun member => Text.lower member.1 = key

theorem mem_spellings : (name, value) ∈ spellings members key ↔
    Spells members key name ∧ lastOf? members name = some value := by
  rw [spellings, List.mem_filter, mem_orderMembers_iff, decide_eq_true_eq, Spells, ← lastOf?_isSome]
  constructor
  · rintro ⟨found, same⟩
    exact ⟨⟨found ▸ rfl, same⟩, found⟩
  · rintro ⟨⟨-, same⟩, found⟩
    exact ⟨found, same⟩

theorem exists_mem_spellings (spelled : Spells members key name) :
    ∃ value, (name, value) ∈ spellings members key := by
  obtain ⟨value, found⟩ := Option.isSome_iff_exists.mp (lastOf?_isSome.mpr spelled.1)
  exact ⟨value, mem_spellings.mpr ⟨spelled, found⟩⟩

theorem spellings_ordered (members : List (String × Json)) (key : String) :
    MembersOrdered (spellings members key) :=
  (orderMembers_ordered members).filter _

end Json

open Json

variable {members : List (String × Json)} {key : String}

theorem Property.foldl_merge (name : String) (first : String × Json) (rest : List (String × Json)) :
    ∃ before kept after, first :: rest = before ++ kept :: after ∧
      rest.foldl Property.merge (some ⟨name, first.2⟩) = some ⟨name, kept.2⟩ ∧
      (∀ member ∈ after, kept.2.same member.2 = true) ∧
      ∀ member ∈ before.getLast?, member.2.same kept.2 = false := by
  induction rest generalizing first with
  | nil => exact ⟨[], first, [], rfl, rfl, by simp, by simp⟩
  | cons second rest ih =>
      by_cases same : first.2.same second.2 = true
      · have step : Property.merge (some ⟨name, first.2⟩) second = some ⟨name, first.2⟩ := by
          simp [merge, take, same]
        obtain ⟨before, kept, after, split, result, level, change⟩ := ih first
        rw [List.foldl_cons, step, result]
        cases before with
        | nil =>
            obtain ⟨rfl, rfl⟩ := List.cons.inj split
            exact ⟨[], first, second :: rest, rfl, rfl,
              List.forall_mem_cons.mpr ⟨same, level⟩, by simp⟩
        | cons start before =>
            obtain ⟨rfl, rfl⟩ := List.cons.inj split
            refine ⟨first :: second :: before, kept, after, rfl, rfl, level, ?_⟩
            cases before with
            | nil =>
                have differ := change first rfl
                rintro member ⟨⟩
                refine Bool.eq_false_iff.mpr fun equal => ?_
                rw [same_trans same equal] at differ
                cases differ
            | cons next others => simpa using change
      · have step : Property.merge (some ⟨name, first.2⟩) second = some ⟨name, second.2⟩ := by
          simp [merge, take, same]
        obtain ⟨before, kept, after, split, result, level, change⟩ := ih second
        rw [List.foldl_cons, step, result, split]
        refine ⟨first :: before, kept, after, rfl, rfl, level, ?_⟩
        cases before with
        | nil =>
            obtain ⟨rfl, -⟩ := List.cons.inj split
            rintro member ⟨⟩
            exact Bool.eq_false_iff.mpr same
        | cons next others => simpa using change

section
variable {before after : List (String × Json)} {kept : String × Json}
  (split : spellings members key = before ++ kept :: after)
include split

theorem lower_kept : Text.lower kept.1 = key := by
  have listed : kept ∈ spellings members key := split ▸ List.mem_append_right _ List.mem_cons_self
  exact (mem_spellings.mp listed).1.2

theorem steady_of_level (level : ∀ member ∈ after, kept.2.same member.2 = true) :
    Steady members kept.1 := by
  intro later spelled behind
  rw [lower_kept split] at spelled
  obtain ⟨value, listed⟩ := exists_mem_spellings spelled
  have here : kept ∈ spellings members key := split ▸ List.mem_append_right _ List.mem_cons_self
  rw [(mem_spellings.mp listed).2, (mem_spellings.mp here).2]
  have ordered := spellings_ordered members key
  rw [split] at listed ordered
  rcases List.mem_append.mp listed with early | late
  · have less := (List.pairwise_append.mp ordered).2.2 _ early kept List.mem_cons_self
    exact absurd (Text.bytes_le_iff.mp behind) (String.not_le.mpr less)
  · rcases List.mem_cons.mp late with same | late
    · rw [← same]
      exact same_refl value
    · exact level _ late

theorem le_of_steady (change : ∀ member ∈ before.getLast?, member.2.same kept.2 = false)
    {other : String} (spelled : Spells members key other) (steady : Steady members other) :
    Text.bytes kept.1 ≤ Text.bytes other := by
  refine Text.bytes_le_iff.mpr (String.not_lt.mp fun less => ?_)
  obtain ⟨value, listed⟩ := exists_mem_spellings spelled
  have ordered := spellings_ordered members key
  -- The values of all spellings from this one on are equal, also of the one before the kept one.
  have equal : ∀ member ∈ spellings members key, other ≤ member.1 →
      value.same member.2 = true := by
    intro member inside behind
    have found := mem_spellings.mp inside
    have same := steady member.1 (spelled.2 ▸ found.1) (Text.bytes_le_iff.mpr behind)
    rwa [(mem_spellings.mp listed).2, found.2] at same
  rw [split] at listed ordered equal
  have inside : (other, value) ∈ before := by
    rcases List.mem_append.mp listed with early | late
    · exact early
    · have tail := List.pairwise_cons.mp (List.pairwise_append.mp ordered).2.1
      rcases List.mem_cons.mp late with same | late
      · exact absurd less (same ▸ String.lt_irrefl other)
      · exact absurd less (String.lt_asymm (tail.1 _ late))
  obtain ⟨early, last, rfl⟩ :=
    (List.eq_nil_or_concat' before).resolve_left (List.ne_nil_of_mem inside)
  have upTo : other ≤ last.1 := by
    rcases List.mem_append.mp inside with earlier | same
    · have headed := (List.pairwise_append.mp ordered).1
      exact String.not_lt.mp (String.lt_asymm
        ((List.pairwise_append.mp headed).2.2 _ earlier last List.mem_cons_self))
    · rw [← List.mem_singleton.mp same]
  have first := equal last (by simp) upTo
  have second := equal kept (by simp) (String.not_lt.mp (String.lt_asymm less))
  have differ := change last (by simp)
  rw [same_trans (same_symm first) second] at differ
  cases differ

theorem exists_last (level : ∀ member ∈ after, kept.2.same member.2 = true) :
    ∃ name value, Spells members key name ∧ lastOf? members name = some value ∧
      (∀ other, Spells members key other → Text.bytes other ≤ Text.bytes name) ∧
      kept.2.same value = true ∧ (value.NoDoubles → kept.2 = value) := by
  obtain ⟨early, last, ending⟩ :=
    (List.eq_nil_or_concat' (kept :: after)).resolve_left (List.cons_ne_nil kept after)
  have ordered := spellings_ordered members key
  have listed : last ∈ spellings members key := by simp [split, ending]
  have same : kept.2.same last.2 = true := by
    have inside : last ∈ kept :: after := by simp [ending]
    rcases List.mem_cons.mp inside with here | later
    · rw [here]
      exact same_refl _
    · exact level last later
  refine ⟨last.1, last.2, (mem_spellings.mp listed).1, (mem_spellings.mp listed).2, ?_, same,
    eq_of_same same⟩
  intro other spelled
  obtain ⟨value, inside⟩ := exists_mem_spellings spelled
  rw [split, ending, ← List.append_assoc] at inside ordered
  rcases List.mem_append.mp inside with earlier | here
  · have less := (List.pairwise_append.mp ordered).2.2 _ earlier last List.mem_cons_self
    exact Text.bytes_le_iff.mpr (String.not_lt.mp (String.lt_asymm less))
  · rw [← List.mem_singleton.mp here]
    exact List.le_refl _

end

/-- A property is what the spellings of its name come to. It has the first of them. Its value is that
of the first spelling from which on the values are equal, and so equal to the value of the last. -/
structure Property.Collapses (property : Property) (members : List (String × Json)) : Prop where
  first : Spells members property.key property.name ∧
    ∀ other, Spells members property.key other → Text.bytes property.name ≤ Text.bytes other
  kept : ∃ name, Spells members property.key name ∧ lastOf? members name = some property.value ∧
    Steady members name ∧ ∀ other, Spells members property.key other → Steady members other →
      Text.bytes name ≤ Text.bytes other
  last : ∃ name value, Spells members property.key name ∧ lastOf? members name = some value ∧
    (∀ other, Spells members property.key other → Text.bytes other ≤ Text.bytes name) ∧
    property.value.same value = true ∧ (value.NoDoubles → property.value = value)

theorem Bag.findKey?_ofMembers (members : List (String × Json)) (nonempty : key ≠ "") :
    (ofMembers members).findKey? key = (spellings members key).foldl Property.merge none :=
  findKey?_setAll_filter empty (orderMembers members) nonempty

theorem Bag.collapses {property : Property} (inside : property ∈ (ofMembers members).properties) :
    property.Collapses members := by
  have nonempty : property.key ≠ "" := fun unnamed =>
    (ofMembers members).named property inside (Text.eq_empty_of_lower unnamed)
  have found := findKey?_eq_some.mpr ⟨inside, rfl⟩
  rw [findKey?_ofMembers members nonempty] at found
  have ordered := spellings_ordered members property.key
  cases listed : spellings members property.key with
  | nil =>
      rw [listed] at found
      cases found
  | cons start rest =>
      obtain ⟨before, kept, after, split, result, level, change⟩ :=
        Property.foldl_merge start.1 start rest
      rw [listed] at found ordered
      have same : property = ⟨start.1, kept.2⟩ := Option.some.inj (found.symm.trans result)
      have name : property.name = start.1 := congrArg Property.name same
      have value : property.value = kept.2 := congrArg Property.value same
      have foremost : start ∈ spellings members property.key := by simp [listed]
      have ending := listed.trans split
      have here : kept ∈ spellings members property.key := by simp [ending]
      constructor
      · refine ⟨name ▸ (mem_spellings.mp foremost).1, fun other spelled => ?_⟩
        obtain ⟨_, inside⟩ := exists_mem_spellings spelled
        rw [listed] at inside
        rw [name, Text.bytes_le_iff]
        rcases List.mem_cons.mp inside with same | later
        · rw [← same]
        · exact String.not_lt.mp (String.lt_asymm ((List.pairwise_cons.mp ordered).1 _ later))
      · exact ⟨kept.1, (mem_spellings.mp here).1, value ▸ (mem_spellings.mp here).2,
          steady_of_level ending level, fun other => le_of_steady ending change⟩
      · rw [value]
        exact exists_last ending level

namespace Bag

theorem ofMembers_perm {members others : List (String × Json)} (perm : others.Perm members)
    (differ : members.Pairwise fun a b => a.1 ≠ b.1) : ofMembers others = ofMembers members := by
  have alsoDiffer : others.Pairwise fun a b => a.1 ≠ b.1 :=
    (perm.pairwise_iff fun apart => Ne.symm apart).mpr differ
  have sorted : (orderMembers others).Perm (orderMembers members) :=
    ((orderMembers_perm alsoDiffer).trans perm).trans (orderMembers_perm differ).symm
  rw [ofMembers, ofMembers, sorted.eq_of_pairwise
    (fun a b _ _ ab ba => absurd ba (String.lt_asymm ab)) (orderMembers_ordered others)
    (orderMembers_ordered members)]

theorem exists_property {member : String × Json} (inside : member ∈ members) (named : member.1 ≠ "") :
    ∃! property, property ∈ (ofMembers members).properties ∧
      property.key = Text.lower member.1 := by
  have nonempty : Text.lower member.1 ≠ "" := fun unnamed => named (Text.eq_empty_of_lower unnamed)
  obtain ⟨value, spelled⟩ :=
    exists_mem_spellings ⟨List.mem_map_of_mem inside, rfl⟩
  obtain ⟨start, rest, listed⟩ := List.exists_cons_of_ne_nil (List.ne_nil_of_mem spelled)
  obtain ⟨_, kept, _, -, result, -⟩ := Property.foldl_merge start.1 start rest
  have found : (ofMembers members).findKey? (Text.lower member.1) = some ⟨start.1, kept.2⟩ := by
    rw [findKey?_ofMembers members nonempty, listed]
    exact result
  refine ⟨_, findKey?_eq_some.mp found, fun other present => ?_⟩
  exact Option.some.inj ((findKey?_eq_some.mpr present).symm.trans found)

/-- An object document is read as a bag that has one property for all spellings of a name, and none
without a name. The order of the members matters only where two have exactly the same name. -/
theorem read_collapses (bytes : ByteArray) (members : List (String × Json))
    (parsed : decodeBytes (Decoder.mapping Decoder.json) bytes = .ok members) :
    ∃ bag, ofBytes bytes = .ok bag ∧
      (∀ property ∈ bag.properties, property.name ≠ "" ∧ property.Collapses members) ∧
      (∀ member ∈ members, member.1 ≠ "" →
        ∃! property, property ∈ bag.properties ∧ property.key = Text.lower member.1) ∧
      ∀ other others, decodeBytes (Decoder.mapping Decoder.json) other = .ok others →
        others.Perm members → (members.Pairwise fun a b => a.1 ≠ b.1) → ofBytes other = .ok bag := by
  have read : ofBytes bytes = .ok (ofMembers members) := by rw [ofBytes_eq, parsed]; rfl
  refine ⟨ofMembers members, read, fun property inside => ?_, fun member => exists_property, ?_⟩
  · exact ⟨(ofMembers members).named property inside, collapses inside⟩
  · intro other others alsoParsed perm differ
    rw [ofBytes_eq, alsoParsed]
    exact congrArg Except.ok (ofMembers_perm perm differ)

theorem decode_object (members : List (String × Json)) (fits : (Json.object members).Fits)
    (same : rereadMembers members = members) :
    decodeBytes (Decoder.mapping Decoder.json) (Json.object members).compact.toUTF8 =
      Decoder.mapping Decoder.json (Tree.within maximumDepth (.object members)) := by
  rw [compact, decodeBytes_write _ Spacing.blank_compact fits, Json.reread, same]

def themes : List (String × Json) :=
  [("theme", .string "light"), ("THEME", .null), ("Theme", .string "dark"), ("", .null),
    ("theme", .string "blue")]

theorem decode_themes : decodeBytes (Decoder.mapping Decoder.json)
    (Json.object themes).compact.toUTF8 = .ok themes :=
  decode_object themes ⟨trivial, trivial, trivial, trivial, trivial, trivial⟩ rfl

def levels : List (String × Json) :=
  [("level", .boolean true), ("Theme", .null), ("Level", .boolean false)]

theorem decode_levels : decodeBytes (Decoder.mapping Decoder.json)
    (Json.object levels).compact.toUTF8 = .ok levels :=
  decode_object levels ⟨trivial, trivial, trivial, trivial⟩ rfl

theorem read_collapses_themes :
    decodeBytes (Decoder.mapping Decoder.json) (Json.object themes).compact.toUTF8 = .ok themes ∧
      (∃ bag, ofBytes (Json.object themes).compact.toUTF8 = .ok bag ∧
        (∀ property ∈ bag.properties, property.name ≠ "" ∧ property.Collapses themes) ∧
        bag.members = [("THEME", .string "blue")]) ∧
      ofBytes (Json.object levels.reverse).compact.toUTF8 =
        ofBytes (Json.object levels).compact.toUTF8 := by
  obtain ⟨bag, read, collapses, -⟩ := read_collapses _ themes decode_themes
  obtain ⟨other, readOther, -, -, permuted⟩ := read_collapses _ levels decode_levels
  refine ⟨decode_themes, ⟨bag, read, collapses, ?_⟩, ?_⟩
  · rw [ofBytes_eq, decode_themes] at read
    cases read
    rfl
  · have reversed := decode_object levels.reverse
      ⟨trivial, trivial, trivial, trivial⟩ rfl
    rw [readOther]
    exact permuted _ levels.reverse reversed (List.reverse_perm levels) (by decide)

def twoZeros : List (String × Json) :=
  [("A", .number (.double (.zero false))), ("a", .number (.double (.zero true)))]

example : (Json.object twoZeros).compact = "\x7b\"A\":0.0,\"a\":-0.0\x7d" := by
  decide +kernel

theorem decode_twoZeros : decodeBytes (Decoder.mapping Decoder.json)
    (Json.object twoZeros).compact.toUTF8 = .ok twoZeros :=
  decode_object twoZeros ⟨trivial, trivial, trivial⟩
    (by simp only [twoZeros, rereadMembers, Json.reread, Number.reread_zero])

/-- The value of the last spelling is not always the one that is kept: an equal one stays, and the
two zeros are equal. -/
theorem not_last_kept : ¬∀ (bytes : ByteArray) (members : List (String × Json)) (bag : Bag),
    decodeBytes (Decoder.mapping Decoder.json) bytes = .ok members → ofBytes bytes = .ok bag →
      ∀ property ∈ bag.properties, ∀ name, Spells members property.key name →
        (∀ other, Spells members property.key other → Text.bytes other ≤ Text.bytes name) →
          lastOf? members name = some property.value := by
  intro last
  have read : ofBytes (Json.object twoZeros).compact.toUTF8 = .ok (ofMembers twoZeros) := by
    rw [ofBytes_eq, decode_twoZeros]
    rfl
  have inside : ⟨"A", .number (.double (.zero false))⟩ ∈ (ofMembers twoZeros).properties :=
    List.mem_cons_self
  have greatest : ∀ other, Spells twoZeros "a" other → Text.bytes other ≤ Text.bytes "a" := by
    rintro other ⟨named, -⟩
    have either : other = "A" ∨ other = "a" := by simpa [twoZeros] using named
    rcases either with rfl | rfl <;> decide +kernel
  have spelled : Spells twoZeros "a" "a" := ⟨by simp [twoZeros], by decide +kernel⟩
  have kept := last _ _ _ decode_twoZeros read _ inside "a" spelled greatest
  have zeros : Double.zero true = Double.zero false := by simpa [lastOf?, twoZeros] using kept
  cases zeros

end Bag
end Waymark
