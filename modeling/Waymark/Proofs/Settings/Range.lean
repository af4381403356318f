import Waymark.Instance
import Waymark.Proofs.Document.Announced
/-!
# Settings within their ranges

Whatever a file holds and whatever is set later, a declared setting is read as a value of its kind,
and a number is within its range. So no getter meets a number that it cannot pass on.
-/

namespace Waymark

namespace Kind

def Ranged : Kind → Prop
  | .number _ low high => low ≤ high
  | _ => True

def Admits : Kind → Json → Prop
  | .yesNo _, value => ∃ answer, value = .boolean answer
  | .number _ low high, value => ∃ number, value = .integer number ∧ low ≤ number ∧ number ≤ high
  | .text default, value => (∃ text, value = .string text) ∨ default = none ∧ value = .null

end Kind

theorem Text.clamp_within {low high : Int} (ranged : low ≤ high) (value : Int) :
    low ≤ clamp low high value ∧ clamp low high value ≤ high := by
  unfold clamp
  split
  · exact ⟨Int.le_refl low, ranged⟩
  split
  · exact ⟨ranged, Int.le_refl high⟩
  · omega

theorem Declaration.admits_resolve {declaration : Declaration} (ranged : declaration.kind.Ranged)
    (bag : Bag) : declaration.kind.Admits (declaration.resolve bag) := by
  obtain ⟨name, kind⟩ := declaration
  cases kind with
  | yesNo default => exact ⟨_, rfl⟩
  | number default low high => exact ⟨_, rfl, Text.clamp_within ranged _⟩
  | text default =>
      unfold resolve
      dsimp only
      split
      · exact .inl ⟨_, rfl⟩
      · cases default with
        | none => exact .inr ⟨rfl, rfl⟩
        | some text => exact .inl ⟨text, rfl⟩

namespace Schema

def Ranged (schema : Schema) : Prop :=
  ∀ declaration ∈ schema, declaration.kind.Ranged

structure Declares (schema : Schema) (name : String) (declaration : Declaration) : Prop where
  same : Text.lower declaration.name = Text.lower name
  first : ∃ before after, schema = before ++ declaration :: after ∧
    ∀ other ∈ before, Text.lower other.name ≠ Text.lower name

variable {schema : Schema} {name : String}

theorem declares_of_declared? {declaration : Declaration}
    (found : schema.declared? name = some declaration) : schema.Declares name declaration := by
  obtain ⟨same, before, after, whole, others⟩ := List.find?_eq_some_iff_append.mp found
  refine ⟨(Text.sameButCase_iff _ _).mp same, before, after, whole, fun other inside equal => ?_⟩
  have different := others other inside
  rw [(Text.sameButCase_iff _ _).mpr equal] at different
  cases different

theorem declared?_isSome {declaration : Declaration} (inside : declaration ∈ schema)
    (same : Text.lower declaration.name = Text.lower name) : (schema.declared? name).isSome :=
  List.find?_isSome.mpr ⟨declaration, inside, (Text.sameButCase_iff _ _).mpr same⟩

theorem admits_get? (ranged : schema.Ranged) (bag : Bag) {declaration : Declaration}
    (inside : declaration ∈ schema) (same : Text.lower declaration.name = Text.lower name) :
    ∃ declared value, schema.Declares name declared ∧ schema.get? bag name = some value ∧
      declared.kind.Admits value := by
  obtain ⟨declared, found⟩ := Option.isSome_iff_exists.mp (declared?_isSome inside same)
  have listed := List.mem_of_find?_eq_some found
  refine ⟨declared, declared.resolve bag, declares_of_declared? found, ?_,
    Declaration.admits_resolve (ranged declared listed) bag⟩
  rw [get?, found]

theorem get?_number {default low high : Int}
    (found : schema.declared? name = some ⟨name, .number default low high⟩) (ranged : low ≤ high)
    (bag : Bag) :
    ∃ number, schema.get? bag name = some (.integer number) ∧ low ≤ number ∧ number ≤ high := by
  obtain ⟨number, resolved, within⟩ :=
    @Declaration.admits_resolve ⟨name, .number default low high⟩ ranged bag
  exact ⟨number, by simp only [get?, found, resolved], within⟩

end Schema

namespace Settings

/-- A span of days in milliseconds, of which at most `2 ^ 63 - 1` can be counted. -/
def daySpan? (days : Int) : Option Int :=
  let milliseconds := days * 86400000
  if milliseconds.natAbs < Text.signedLimit then some milliseconds else none

/-- The numbers that the getters take from a document. None is lost when it becomes a count, and the
days that backups are kept make a span. -/
structure WithinRanges (bag : Bag) : Prop where
  instances : 1 ≤ maximumInstances bag ∧ maximumInstances bag ≤ 100
  interval : 100 ≤ instancesUpdateInterval bag ∧ instancesUpdateInterval bag ≤ 600000
  days : -1 ≤ backupsMaximumDays bag ∧ backupsMaximumDays bag ≤ 3650
  entries : 10 ≤ maximumHistoryEntries bag ∧ maximumHistoryEntries bag ≤ 1000
  thumbnails : 16 ≤ Instance.thumbnailsSize bag ∧ Instance.thumbnailsSize bag ≤ 512
  wholeInstances : (maximumInstances bag : Int) = number bag "maximumInstances"
  wholeInterval : (instancesUpdateInterval bag : Int) = number bag "instancesUpdateInterval"
  wholeEntries : (maximumHistoryEntries bag : Int) = number bag "maximumHistoryEntries"
  retention : daySpan? (backupsMaximumDays bag) = some (backupsMaximumDays bag * 86400000)

theorem number_within {bag : Bag} {name : String} {default low high : Int}
    (found : schema.declared? name = some ⟨name, .number default low high⟩) (ranged : low ≤ high) :
    low ≤ number bag name ∧ number bag name ≤ high := by
  obtain ⟨value, read, within⟩ := Schema.get?_number found ranged bag
  rw [number, read]
  exact within

theorem withinRanges (bag : Bag) : WithinRanges bag := by
  have instances := @number_within bag "maximumInstances" 10 1 100 rfl (by decide)
  have interval := @number_within bag "instancesUpdateInterval" 5000 100 600000 rfl (by decide)
  have days := @number_within bag "backupsMaxDays" 30 (-1) 3650 rfl (by decide)
  have entries := @number_within bag "maximumHistoryEntries" 100 10 1000 rfl (by decide)
  have thumbnails : 16 ≤ Instance.thumbnailsSize bag ∧ Instance.thumbnailsSize bag ≤ 512 := by
    obtain ⟨value, read, within⟩ :=
      @Schema.get?_number Instance.schema "thumbnailsSize" 96 16 512 rfl (by decide) bag
    rw [Instance.thumbnailsSize, read]
    exact within
  have clamped : maximumHistoryEntries bag = (number bag "maximumHistoryEntries").toNat := by
    rw [maximumHistoryEntries, Trail.clampLimit]
    omega
  refine ⟨?_, ?_, days, ?_, thumbnails, ?_, ?_, ?_, ?_⟩
  · rw [maximumInstances]; omega
  · rw [instancesUpdateInterval]; omega
  · rw [clamped]; omega
  · exact Int.toNat_of_nonneg (by omega)
  · exact Int.toNat_of_nonneg (by omega)
  · rw [clamped]; exact Int.toNat_of_nonneg (by omega)
  · rw [backupsMaximumDays, daySpan?]
    exact if_pos (by simp only [Text.signedLimit]; omega)

/-- Whatever bytes a file of settings holds and whatever values are set later under whatever names, a
declared name, in any spelling, is read as a value of the kind that its first declaration gives it,
and all getters stay within their ranges. -/
theorem read_within (disk : Disk) (path : Path) (hasWriter : Bool) (values : List (String × Json)) :
    let bag := ((Document.open disk path hasWriter).setEach values).bag
    (∀ schema : Schema, schema.Ranged → ∀ declaration ∈ schema, ∀ name,
      Text.lower declaration.name = Text.lower name →
        ∃ declared value, schema.Declares name declared ∧ schema.get? bag name = some value ∧
          declared.kind.Admits value) ∧
      WithinRanges bag := by
  intro bag
  exact ⟨fun schema ranged declaration inside name same =>
    Schema.admits_get? ranged bag inside same, withinRanges bag⟩

end Settings
end Waymark
