import Waymark.Proofs.Bag.Dictionary
import Waymark.Proofs.Bag.Typed
import Waymark.Proofs.Settings.Range
import Waymark.Proofs.Text.Given
/-!
# Settings that are set from texts

A text sets a setting to what it stands for where a value of its kind is expected. That is what the
setting then is, in whatever spelling it is asked for, and all others stay as they were. A text that
stands for nothing is refused and changes nothing.
-/

namespace Waymark

open Json (Decoder)

namespace Kind

def Signed : Kind → Prop
  | .number _ low high => Bag.IsSigned low ∧ Bag.IsSigned high
  | _ => True

inductive Reads : Kind → String → Json → Prop
  | yesNo {default answer : Bool} {raw : String} (answers : Text.Answers (Text.trim raw) answer) :
      Reads (.yesNo default) raw (.boolean answer)
  | number {default low high value : Int} {raw : String}
      (writes : Text.Writes (Text.trim raw).toList value) (signed : Bag.IsSigned value) :
      Reads (.number default low high) raw (.integer (max low (min value high)))
  | text {default : Option String} {raw : String} : Reads (.text default) raw (.string raw)

end Kind

theorem Text.clamp_eq {low high : Int} (ranged : low ≤ high) (value : Int) :
    clamp low high value = max low (min value high) := by
  unfold clamp
  split
  · omega
  split <;> omega

theorem Text.isSigned_clamp {low high : Int} (least : Bag.IsSigned low)
    (greatest : Bag.IsSigned high) (value : Int) : Bag.IsSigned (max low (min value high)) := by
  unfold Bag.IsSigned at *
  omega

namespace Declaration

variable {declaration : Declaration} {raw : String} {value : Json}

theorem parse_eq_ok (ranged : declaration.kind.Ranged) :
    declaration.parse raw = .ok value ↔ declaration.kind.Reads raw value := by
  obtain ⟨name, kind⟩ := declaration
  constructor
  · intro parsed
    unfold parse at parsed
    cases kind with
    | yesNo default =>
        dsimp only at parsed
        split at parsed
        · rename_i read
          cases parsed
          exact .yesNo (Text.yesNo?_eq_some.mp read)
        · cases parsed
    | number default low high =>
        dsimp only at parsed
        split at parsed
        · rename_i read
          cases parsed
          obtain ⟨writes, signed⟩ := Text.int64?_eq_some.mp read
          rw [Text.clamp_eq ranged]
          exact .number writes signed
        · cases parsed
    | text default =>
        cases parsed
        exact .text
  · intro reads
    cases reads with
    | yesNo answers => simp only [parse, Text.yesNo?_eq_some.mpr answers]
    | number writes signed =>
        simp only [parse, Text.int64?_eq_some.mpr ⟨writes, signed⟩, Text.clamp_eq ranged]
    | text => rfl

theorem failure_of_parse {failure : Failure} (refused : declaration.parse raw = .error failure) :
    failure = .invalidValue declaration.name raw := by
  unfold parse at refused
  dsimp only at refused
  split at refused
  · split at refused <;> cases refused
    rfl
  · split at refused <;> cases refused
    rfl
  · cases refused

theorem resolve_set (ranged : declaration.kind.Ranged) (signed : declaration.kind.Signed)
    (reads : declaration.kind.Reads raw value) (nonempty : declaration.name ≠ "") (bag : Bag) :
    declaration.resolve (bag.set declaration.name value).1 = value := by
  obtain ⟨name, kind⟩ := declaration
  cases reads with
  | @yesNo default answer =>
      have whole : (Json.boolean answer).NoDoubles := trivial
      have kept : (bag.set name (.boolean answer)).1.get? Decoder.boolean name = some answer :=
        (bag.get?_set nonempty rfl whole).trans (Json.convert?_of_taken rfl)
      simp only [resolve, kept, Option.getD_some]
  | @number default low high number =>
      have ordered : low ≤ high := ranged
      have stands := Bag.stands_signed (Text.isSigned_clamp signed.1 signed.2 number) 0
      have kept := (bag.get?_set nonempty rfl stands.whole).trans (Json.convert?_of_taken stands.taken)
      have again : max low (min (max low (min number high)) high) = max low (min number high) := by
        omega
      simp only [resolve, kept, Option.getD_some, Text.clamp_eq ordered, again]
  | text =>
      have kept : (bag.set name (.string raw)).1.get? Decoder.text name = some raw :=
        (bag.get?_set_string nonempty rfl raw).trans (Json.convert?_of_taken rfl)
      simp only [resolve, kept]

end Declaration

namespace Schema

variable {schema : Schema} {name other raw key : String} {value : Json}

def Signed (schema : Schema) : Prop :=
  ∀ declaration ∈ schema, declaration.kind.Signed

def Undeclared (schema : Schema) (name : String) : Prop :=
  ∀ declaration ∈ schema, Text.lower declaration.name ≠ Text.lower name

/-- The name and the value that a text sets. For a setting that is not declared, the text is read as
a document, and stands for itself if it is none. -/
inductive Sets (schema : Schema) (name raw : String) : String → Json → Prop
  | declared {declaration : Declaration} {value : Json} (declares : schema.Declares name declaration)
      (reads : declaration.kind.Reads raw value) : Sets schema name raw declaration.name value
  | document {value : Json} (undeclared : schema.Undeclared name)
      (decoded : Json.decode Decoder.json raw = .ok value) : Sets schema name raw name value
  | words (undeclared : schema.Undeclared name)
      (noDocument : ∀ value, Json.decode Decoder.json raw ≠ .ok value) :
      Sets schema name raw name (.string raw)

inductive Refuses (schema : Schema) (name raw : String) : String → Prop
  | blank (blank : Text.OnlyBlanks name) : Refuses schema name raw name
  | unread {declaration : Declaration} (named : ¬Text.OnlyBlanks name)
      (declares : schema.Declares name declaration)
      (unread : ∀ value, ¬declaration.kind.Reads raw value) :
      Refuses schema name raw declaration.name

theorem declared?_eq_some {declaration : Declaration} :
    schema.declared? name = some declaration ↔ schema.Declares name declaration := by
  refine ⟨declares_of_declared?, fun ⟨same, before, after, whole, others⟩ => ?_⟩
  refine List.find?_eq_some_iff_append.mpr ⟨(Text.sameButCase_iff _ _).mpr same, before, after,
    whole, fun other inside => ?_⟩
  rw [Bool.not_eq_true', Bool.eq_false_iff, ne_eq, Text.sameButCase_iff]
  exact others other inside

theorem declared?_eq_none : schema.declared? name = none ↔ schema.Undeclared name := by
  rw [declared?, List.find?_eq_none]
  simp only [Text.sameButCase_iff]
  rfl

theorem declared?_congr (same : Text.lower other = Text.lower name) :
    schema.declared? other = schema.declared? name := by
  unfold declared?
  congr 1
  funext declaration
  rw [Bool.eq_iff_iff, Text.sameButCase_iff, Text.sameButCase_iff, same]

theorem Declares.mem {declaration : Declaration} (declares : schema.Declares name declaration) :
    declaration ∈ schema :=
  List.mem_of_find?_eq_some (declared?_eq_some.mpr declares)

theorem Declares.unique {one two : Declaration} (first : schema.Declares name one)
    (second : schema.Declares name two) : one = two :=
  Option.some.inj ((declared?_eq_some.mpr first).symm.trans (declared?_eq_some.mpr second))

theorem Declares.not_undeclared {declaration : Declaration}
    (declares : schema.Declares name declaration) : ¬schema.Undeclared name :=
  fun undeclared => undeclared declaration declares.mem declares.same

theorem Sets.lower_key (sets : schema.Sets name raw key value) : Text.lower key = Text.lower name := by
  cases sets with
  | declared declares => exact declares.same
  | document | words => rfl

theorem Sets.nonempty (sets : schema.Sets name raw key value) (named : ¬Text.OnlyBlanks name) :
    key ≠ "" := by
  rintro rfl
  exact Text.ne_empty_of_not_onlyBlanks named (Text.eq_empty_of_lower sets.lower_key.symm)

theorem assignment_eq_ok (ranged : schema.Ranged) :
    schema.assignment name raw = .ok (key, value) ↔
      ¬Text.OnlyBlanks name ∧ schema.Sets name raw key value := by
  rw [assignment, ← Text.isEmpty_trim_iff]
  split
  · rename_i blank
    simp [blank]
  rename_i named
  rw [and_iff_right named]
  cases found : schema.declared? name with
  | some declaration =>
      have declares := declared?_eq_some.mp found
      have read := @Declaration.parse_eq_ok declaration raw value (ranged _ declares.mem)
      constructor
      · intro accepted
        obtain ⟨parsed, ok, same⟩ := of_map_ok accepted
        cases same
        exact .declared declares (read.mp ok)
      · intro sets
        cases sets with
        | declared other reads =>
            cases other.unique declares
            simp only [read.mpr reads, Except.map]
        | document undeclared | words undeclared => exact absurd undeclared declares.not_undeclared
  | none =>
      have undeclared := declared?_eq_none.mp found
      dsimp only
      unfold undeclaredValue
      constructor
      · intro accepted
        cases accepted
        split
        · exact .document undeclared ‹_›
        · rename_i refused
          exact .words undeclared fun value decoded => by simp [refused] at decoded
      · intro sets
        cases sets with
        | declared declares => exact absurd undeclared declares.not_undeclared
        | document _ decoded => rw [decoded]
        | words _ noDocument =>
            split
            · exact absurd ‹_› (noDocument _)
            · rfl

theorem assignment_eq_error (ranged : schema.Ranged) {failure : Failure} :
    schema.assignment name raw = .error failure ↔
      ∃ property, schema.Refuses name raw property ∧ failure = .invalidValue property raw := by
  rw [assignment]
  split
  · rename_i blank
    have blank := Text.isEmpty_trim_iff.mp blank
    constructor
    · intro refused
      cases refused
      exact ⟨name, .blank blank, rfl⟩
    · rintro ⟨property, refuses, rfl⟩
      cases refuses with
      | blank => rfl
      | unread named => exact absurd blank named
  rename_i named
  have named : ¬Text.OnlyBlanks name := fun blank => named (Text.isEmpty_trim_iff.mpr blank)
  cases found : schema.declared? name with
  | some declaration =>
      have declares := declared?_eq_some.mp found
      have read := fun value =>
        @Declaration.parse_eq_ok declaration raw value (ranged _ declares.mem)
      dsimp only
      cases parsed : declaration.parse raw with
      | ok value =>
          refine iff_of_false nofun ?_
          rintro ⟨property, refuses, -⟩
          cases refuses with
          | blank blank => exact named blank
          | unread _ other unread =>
              cases other.unique declares
              exact unread value ((read value).mp parsed)
      | error refused =>
          obtain rfl := Declaration.failure_of_parse parsed
          constructor
          · intro same
            cases same
            refine ⟨_, .unread named declares fun value reads => ?_, rfl⟩
            rw [(read value).mpr reads] at parsed
            cases parsed
          · rintro ⟨property, refuses, rfl⟩
            cases refuses with
            | blank blank => exact absurd blank named
            | unread _ other =>
                cases other.unique declares
                rfl
  | none =>
      refine iff_of_false nofun ?_
      rintro ⟨property, refuses, -⟩
      cases refuses with
      | blank blank => exact named blank
      | unread _ declares => exact declares.not_undeclared (declared?_eq_none.mp found)

theorem get?_congr {a b : Bag} (same : a.value? name = b.value? name) :
    schema.get? a name = schema.get? b name := by
  unfold get?
  split
  · rename_i declaration found
    have equal := (declares_of_declared? found).same
    have values : a.value? declaration.name = b.value? declaration.name := by
      rw [a.value?_congr equal, b.value?_congr equal, same]
    simp only [Declaration.resolve, Bag.get?, values]
  · exact same

theorem get?_spelling (same : Text.lower other = Text.lower name) (bag : Bag) :
    schema.get? bag other = schema.get? bag name := by
  unfold get?
  rw [declared?_congr same, bag.value?_congr same]

theorem get?_set_of_ne (different : Text.lower other ≠ Text.lower key) (bag : Bag) :
    schema.get? (bag.set key value).1 other = schema.get? bag other :=
  get?_congr (Bag.value?_set_of_ne different)

theorem get?_set_undeclared (undeclared : schema.Undeclared name) (nonempty : name ≠ "") (bag : Bag)
    (value : Json) :
    ∃ found, schema.get? (bag.set name value).1 name = some found ∧ found.same value = true := by
  obtain ⟨stored, found, equal⟩ := (bag.sets nonempty value).reads name rfl
  refine ⟨stored, ?_, Json.same_iff.mpr equal⟩
  rw [get?, declared?_eq_none.mpr undeclared, found]

theorem get?_set_sets (ranged : schema.Ranged) (signed : schema.Signed)
    (sets : schema.Sets name raw key value) (nonempty : key ≠ "") (bag : Bag) :
    ∃ found, schema.get? (bag.set key value).1 name = some found ∧ found.same value = true := by
  cases sets with
  | @declared declaration _ declares reads =>
      have inside := declares.mem
      have kept := Declaration.resolve_set (ranged _ inside) (signed _ inside) reads nonempty bag
      refine ⟨value, ?_, Json.same_refl value⟩
      rw [get?, declared?_eq_some.mpr declares]
      exact congrArg some kept
  | document undeclared | words undeclared =>
      exact get?_set_undeclared undeclared nonempty bag _

end Schema

theorem Settings.schema_ranged : Settings.schema.Ranged := by
  simp [Schema.Ranged, Settings.schema, Kind.Ranged]

theorem Settings.schema_signed : Settings.schema.Signed := by
  simp [Schema.Signed, Settings.schema, Kind.Signed, Bag.IsSigned, Text.signedLimit]

namespace Document

/-- A document after a text was taken: the setting has the value of the text, in whatever spelling,
and the others have theirs. A name that was not there is spelled as it is given. It is told whether
there is another value under the name, and the name is announced if there is. -/
structure Takes (schema : Schema) (before : Document) (name key : String) (value : Json)
    (after : Document) (changed : Bool) : Prop where
  reads : ∀ other, Text.lower other = Text.lower name →
    ∃ found, schema.get? after.bag other = some found ∧ found.same value = true
  others : ∀ other, Text.lower other ≠ Text.lower name →
    schema.get? after.bag other = schema.get? before.bag other
  spelling : (after.bag.find? name).map Property.name =
    some (((before.bag.find? name).map Property.name).getD key)
  tells : changed = true ↔ after.bag.value? name ≠ before.bag.value? name
  only : after = { before with
    bag := after.bag
    notices := before.notices.postAll (if changed then [key] else []) }

variable {schema : Schema} {name raw key : String} {value : Json}

theorem takes_set (ranged : schema.Ranged) (signed : schema.Signed)
    (sets : schema.Sets name raw key value) (nonempty : key ≠ "") (document : Document) :
    Takes schema document name key value (document.set key value).1 (document.set key value).2 := by
  have same := sets.lower_key
  rw [set_eq]
  exact {
    reads := by
      intro other equal
      rw [Schema.get?_spelling equal]
      exact Schema.get?_set_sets ranged signed sets nonempty document.bag
    others := fun other different => Schema.get?_set_of_ne (same ▸ different) document.bag
    spelling := by
      have spelled := (document.bag.sets nonempty value).spelling
      rwa [Bag.find?, Bag.find?, same] at spelled
    tells := by
      dsimp only
      rw [← (document.bag.set key value).1.value?_congr same, ← document.bag.value?_congr same]
      -- What counts as the same is never set, so that whatever was set is another value.
      cases changed : (document.bag.set key value).2 with
      | false => simp [bag_set_unchanged changed]
      | true =>
          obtain ⟨after, another⟩ := Bag.value?_set_of_changed changed
          refine iff_of_true rfl fun equal => ?_
          rw [← equal, after, Json.sameOrMissing_refl] at another
          cases another
    only := rfl }

/-- A text is refused exactly if the name is blank, or if it is no word for yes or no or no whole
number where one is declared, and then nothing changes. All others are taken. -/
theorem setText_takes (ranged : schema.Ranged) (signed : schema.Signed) (document : Document)
    (name raw : String) :
    let outcome := document.setText schema name raw
    (∀ failure, outcome.2 = .error failure ↔
      ∃ property, schema.Refuses name raw property ∧ failure = .invalidValue property raw) ∧
    ((∃ property, schema.Refuses name raw property) → outcome.1 = document) ∧
    ((¬∃ property, schema.Refuses name raw property) →
      ∃ key value changed, schema.Sets name raw key value ∧ outcome.2 = .ok changed ∧
        Takes schema document name key value outcome.1 changed) := by
  intro outcome
  have refused := fun failure => @Schema.assignment_eq_error schema name raw ranged failure
  simp only [outcome, setText]
  cases given : schema.assignment name raw with
  | error failure =>
      obtain ⟨property, refuses, -⟩ := (refused failure).mp given
      refine ⟨fun other => ?_, fun _ => rfl, fun none => absurd ⟨property, refuses⟩ none⟩
      rw [← refused, given]
      simp
  | ok assigned =>
      obtain ⟨key, value⟩ := assigned
      obtain ⟨named, sets⟩ := (Schema.assignment_eq_ok ranged).mp given
      have accepts : ¬∃ property, schema.Refuses name raw property := by
        rintro ⟨property, refuses⟩
        have failed := (refused _).mpr ⟨property, refuses, rfl⟩
        rw [given] at failed
        cases failed
      have takes := takes_set ranged signed sets (sets.nonempty named) document
      refine ⟨fun failure => iff_of_false nofun ?_, fun refuses => absurd refuses accepts,
        fun _ => ⟨key, value, _, sets, rfl, takes⟩⟩
      rintro ⟨property, refuses, -⟩
      exact accepts ⟨property, refuses⟩

def sevenInstances : Document :=
  .ofBag ⟨"/s.json"⟩ (Bag.empty.set "MaximumInstances" (.integer 7)).1 true

/-- Too many instances become as many as there can be, under the spelling that was there. -/
theorem setText_takes_sevenInstances :
    let outcome := sevenInstances.setText Settings.schema "maximuminstances" " +500\n"
    outcome.2 = .ok true ∧
      (outcome.1.bag.find? "MAXIMUMINSTANCES").map Property.name = some "MaximumInstances" ∧
      Settings.schema.get? outcome.1.bag "MAXIMUMINSTANCES" = some (.integer 100) ∧
      Settings.schema.get? outcome.1.bag "backupsMaxDays" = some (.integer 30) ∧
      sevenInstances.setText Settings.schema "SENDERRORREPORT" "maybe" =
        (sevenInstances, .error (.invalidValue "sendErrorReport" "maybe")) := by
  intro outcome
  have ranged := Settings.schema_ranged
  have signed := Settings.schema_signed
  have told : outcome.2 = .ok true := by decide +kernel
  obtain ⟨failures, -, takes⟩ :=
    setText_takes ranged signed sevenInstances "maximuminstances" " +500\n"
  have accepts : ¬∃ property, Settings.schema.Refuses "maximuminstances" " +500\n" property := by
    rintro ⟨property, refuses⟩
    have failed := (failures _).mpr ⟨property, refuses, rfl⟩
    exact absurd (told.symm.trans failed) nofun
  obtain ⟨key, value, changed, -, -, taken⟩ := takes accepts
  have spelling : (sevenInstances.bag.find? "maximuminstances").map Property.name =
      some "MaximumInstances" := by decide +kernel
  have spelled := taken.spelling
  rw [spelling, Bag.find?, show Text.lower "maximuminstances" = Text.lower "MAXIMUMINSTANCES" by
    decide +kernel] at spelled
  refine ⟨told, spelled, rfl, ?_, ?_⟩
  · exact (taken.others "backupsMaxDays" (by decide +kernel)).trans rfl
  · obtain ⟨refusals, stays, -⟩ :=
      setText_takes ranged signed sevenInstances "SENDERRORREPORT" "maybe"
    have refused : (sevenInstances.setText Settings.schema "SENDERRORREPORT" "maybe").2 =
        .error (.invalidValue "sendErrorReport" "maybe") := by decide +kernel
    obtain ⟨property, refuses, -⟩ := (refusals _).mp refused
    exact Prod.ext (stays ⟨property, refuses⟩) refused

end Document
end Waymark
