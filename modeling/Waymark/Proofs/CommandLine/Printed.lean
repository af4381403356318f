import Waymark.CommandLine.Run
import Waymark.Proofs.Document.Assigned
import Waymark.Proofs.Settings.Texts
import Waymark.Proofs.Text.Digits
/-!
# Settings that are printed and set again

A setting is printed as a document of its value. Where a text stands for a value, that document
stands for the value that was printed, so to set it changes nothing. A declared text is set to the
document itself, with the quotes around it.
-/

namespace Waymark

open Json (Decoder maximumDepth)

theorem Text.writes_integerText (value : Int) : Writes (Json.integerText value) value := by
  have numeral : IsNumeral (Nat.toDigits 10 value.natAbs) :=
    ⟨Nat.toDigits_ne_nil, fun _ inside => isDigit_of_mem_toDigits inside⟩
  unfold Json.integerText
  dsimp only
  split
  · have written := Writes.minus numeral
    rwa [digitsValue_toDigits, show -(value.natAbs : Int) = value by omega] at written
  · have written := Writes.bare numeral
    rwa [digitsValue_toDigits, show (value.natAbs : Int) = value by omega] at written

namespace Json

variable {value : Json}

theorem trim_compact (whole : value.NoDoubles) : Text.trim value.compact = value.compact := by
  have trimmed := @Text.trim_surrounded [] _ [] nofun nofun (solid_write .compact 0 whole)
  rwa [List.nil_append, List.append_nil] at trimmed

theorem decode_compact (fits : value.Fits) (whole : value.NoDoubles) :
    decode Decoder.json value.compact = Decoder.json (Tree.within maximumDepth value) := by
  rw [decode, Glyph.ofString, compact, String.toList_ofList]
  refine (decodeGlyphs_write Decoder.json Spacing.blank_compact fits).trans ?_
  rw [reread_of_noDoubles whole]

theorem length_le_escaped (text : List Char) : text.length ≤ (text.flatMap escape).length := by
  induction text with
  | nil => exact Nat.le_refl 0
  | cons c rest ih =>
      have escaped : 1 ≤ (escape c).length := by
        unfold escape
        repeat' split
        all_goals simp
      rw [List.flatMap_cons, List.length_append, List.length_cons]
      omega

theorem string_compact_ne (value : Json) : Json.string value.compact ≠ value := by
  intro same
  have length : ∀ text : String, text.toList.length < (Json.string text).compact.toList.length := by
    intro text
    have escaped := length_le_escaped text.toList
    simp only [compact, write, stringText, String.toList_ofList, List.length_append,
      List.length_cons]
    omega
  have shorter := length value.compact
  rw [same] at shorter
  exact Nat.lt_irrefl _ shorter

end Json

theorem Kind.noDoubles_of_admits {kind : Kind} {value : Json} (admits : kind.Admits value) :
    value.NoDoubles := by
  cases kind with
  | yesNo default =>
      obtain ⟨answer, rfl⟩ := admits
      trivial
  | number default low high =>
      obtain ⟨number, rfl, -⟩ := admits
      trivial
  | text default =>
      obtain ⟨text, rfl⟩ | ⟨-, rfl⟩ := admits <;> trivial

theorem Kind.reads_compact {kind : Kind} (signed : kind.Signed) {value : Json}
    (admits : kind.Admits value) (noText : ∀ default, kind ≠ .text default) :
    kind.Reads value.compact value := by
  have trimmed := Json.trim_compact (noDoubles_of_admits admits)
  cases kind with
  | yesNo default =>
      obtain ⟨answer, rfl⟩ := admits
      refine .yesNo ?_
      rw [trimmed]
      cases answer <;> decide
  | number default low high =>
      obtain ⟨number, rfl, least, greatest⟩ := admits
      have within : max low (min number high) = number := by omega
      have reads : Kind.Reads (.number default low high) (Json.integer number).compact
          (.integer (max low (min number high))) := by
        refine .number ?_ ?_
        · rw [trimmed, Json.compact, String.toList_ofList]
          exact Text.writes_integerText number
        · have bounds := signed
          simp only [Signed, Bag.IsSigned] at bounds ⊢
          omega
      rwa [within] at reads
  | text default => exact absurd rfl (noText default)

namespace Schema

variable {schema : Schema} {bag : Bag} {name : String} {value : Json}

/-- What is printed for a value is kept as the text that it is: where any text stands for itself, and
where a value that is not declared is nested deeper than a text is read. -/
inductive KeepsPrinted (schema : Schema) (name : String) (value : Json) : Prop
  | text {declaration : Declaration} {default : Option String}
      (declares : schema.Declares name declaration) (kind : declaration.kind = .text default) :
      KeepsPrinted schema name value
  | deep (undeclared : schema.Undeclared name) (deep : maximumDepth < value.depth) :
      KeepsPrinted schema name value

theorem noDoubles_get? (ranged : schema.Ranged) (whole : bag.NoDoubles)
    (found : schema.get? bag name = some value) : value.NoDoubles := by
  unfold get? at found
  split at found
  · rename_i declaration declared
    cases found
    have inside := (declared?_eq_some.mp declared).mem
    exact Kind.noDoubles_of_admits (Declaration.admits_resolve (ranged _ inside) bag)
  · obtain ⟨property, inside, -, rfl⟩ := Bag.value?_eq_some.mp found
    exact whole property inside

theorem sets_printed (ranged : schema.Ranged) (signed : schema.Signed) (formed : bag.Formed)
    (whole : bag.NoDoubles) (found : schema.get? bag name = some value) :
    (schema.KeepsPrinted name value →
      ∃ key, schema.Sets name value.compact key (.string value.compact)) ∧
    (¬schema.KeepsPrinted name value → ∃ key, schema.Sets name value.compact key value) := by
  have noDoubles := noDoubles_get? ranged whole found
  -- A declared setting is printed as its kind admits it, any other as it is stored.
  unfold get? at found
  split at found
  · rename_i declaration declared
    cases found
    have declares := declared?_eq_some.mp declared
    have inside := declares.mem
    constructor
    · intro keeps
      cases keeps with
      | deep undeclared => exact absurd undeclared declares.not_undeclared
      | text other kind =>
          cases other.unique declares
          exact ⟨_, .declared declares (kind ▸ .text)⟩
    · intro stands
      have admits := Declaration.admits_resolve (ranged _ inside) bag
      exact ⟨_, .declared declares (Kind.reads_compact (signed _ inside) admits
        fun default kind => stands (.text declares kind))⟩
  · rename_i missing
    have undeclared := declared?_eq_none.mp missing
    obtain ⟨property, inside, -, rfl⟩ := Bag.value?_eq_some.mp found
    obtain ⟨fits, canonical⟩ := formed property inside
    have decoded := Json.decode_compact fits noDoubles
    constructor
    · intro keeps
      cases keeps with
      | text declares => exact absurd undeclared declares.not_undeclared
      | deep _ deep =>
          rw [Decoder.json_within_of_deep _ _ canonical deep] at decoded
          exact ⟨name, .words undeclared fun value read => by simp [decoded] at read⟩
    · intro stands
      have shallow : property.value.depth ≤ maximumDepth :=
        Nat.le_of_not_lt fun deep => stands (.deep undeclared deep)
      rw [Json.Tree.within_of_shallow _ _ shallow, Decoder.json_ofJson _ canonical] at decoded
      exact ⟨name, .document undeclared decoded⟩

end Schema

namespace CommandLine

variable {schema : Schema} {document : Document} {disk : Disk} {name : String} {value : Json}

theorem act_set_bag {raw key : String} {stored : Json}
    (accepted : schema.assignment name raw = .ok (key, stored)) :
    (act schema document disk (.set name raw)).1.bag = (document.bag.set key stored).1 := by
  rw [← document.assign_bag disk accepted, act]
  rcases document.assign schema disk name raw with ⟨after, -, result⟩
  cases result <;> rfl

theorem act_set_refused {raw : String} {failure : Failure}
    (refused : schema.assignment name raw = .error failure) :
    (act schema document disk (.set name raw)).1 = document := by
  rw [act, Document.assign, Document.setText, refused]

theorem act_set_sets (ranged : schema.Ranged) (signed : schema.Signed)
    (named : ¬Text.OnlyBlanks name) {raw key : String} {stored : Json}
    (sets : schema.Sets name raw key stored) (whole : stored.NoDoubles) :
    let after := (act schema document disk (.set name raw)).1.bag
    schema.get? after name = some stored ∧
      ∀ other, Text.lower other ≠ Text.lower name →
        schema.get? after other = schema.get? document.bag other := by
  have bag := @act_set_bag schema document disk name _ _ _
    ((Schema.assignment_eq_ok ranged).mpr ⟨named, sets⟩)
  dsimp only
  rw [bag]
  constructor
  · obtain ⟨back, got, same⟩ :=
      Schema.get?_set_sets ranged signed sets (sets.nonempty named) document.bag
    rw [got, Json.eq_of_same same whole]
  · exact fun other different => Schema.get?_set_of_ne (sets.lower_key ▸ different) document.bag

/-- A setting that is printed and set again is the same as before, unless it is kept as the text that
was printed. A blank name is refused. -/
theorem act_set_printed (ranged : schema.Ranged) (signed : schema.Signed)
    (formed : document.bag.Formed) (whole : document.bag.NoDoubles)
    (found : schema.get? document.bag name = some value) (disk : Disk) :
    let after := (act schema document disk (.set name value.compact)).1.bag
    (∀ other, Text.lower other ≠ Text.lower name →
      schema.get? after other = schema.get? document.bag other) ∧
    (¬Text.OnlyBlanks name ∧ schema.KeepsPrinted name value →
      schema.get? after name = some (.string value.compact)) ∧
    (¬(¬Text.OnlyBlanks name ∧ schema.KeepsPrinted name value) →
      schema.get? after name = some value) := by
  dsimp only
  by_cases blank : Text.OnlyBlanks name
  · have refused : schema.assignment name value.compact =
        .error (.invalidValue name value.compact) :=
      (Schema.assignment_eq_error ranged).mpr ⟨name, .blank blank, rfl⟩
    rw [act_set_refused refused]
    exact ⟨fun _ _ => rfl, fun keeps => absurd blank keeps.1, fun _ => found⟩
  obtain ⟨keeps, stands⟩ := Schema.sets_printed ranged signed formed whole found
  by_cases kept : schema.KeepsPrinted name value
  · obtain ⟨key, sets⟩ := keeps kept
    obtain ⟨read, others⟩ := act_set_sets ranged signed blank sets trivial
    exact ⟨others, fun _ => read, fun none => absurd ⟨blank, kept⟩ none⟩
  · obtain ⟨key, sets⟩ := stands kept
    have noDoubles := Schema.noDoubles_get? ranged whole found
    obtain ⟨read, others⟩ := act_set_sets ranged signed blank sets noDoubles
    exact ⟨others, fun keeps => absurd keeps.2 kept, fun _ => read⟩

end CommandLine

theorem Instance.schema_ranged : Instance.schema.Ranged := by
  simp [Schema.Ranged, Instance.schema, Kind.Ranged]

theorem Instance.schema_signed : Instance.schema.Signed := by
  simp [Schema.Signed, Instance.schema, Kind.Signed, Bag.IsSigned, Text.signedLimit]

namespace CommandLine

theorem keepsPrinted_iff (known : schema = Settings.schema ∨ schema = Instance.schema) :
    schema.KeepsPrinted name value ↔
      schema = Instance.schema ∧ Text.lower name = Text.lower "instanceName" ∨
        schema.Undeclared name ∧ maximumDepth < value.depth := by
  have noText : ∀ declaration ∈ Settings.schema, ∀ default, declaration.kind ≠ .text default := by
    simp [Settings.schema]
  have onlyName : ∀ declaration ∈ Instance.schema, ∀ default,
      declaration.kind = .text default → declaration.name = "instanceName" := by
    simp [Instance.schema]
  constructor
  · intro keeps
    cases keeps with
    | deep undeclared deep => exact .inr ⟨undeclared, deep⟩
    | text declares kind =>
        obtain rfl | rfl := known
        · exact absurd kind (noText _ declares.mem _)
        · exact .inl ⟨rfl, by rw [← declares.same, onlyName _ declares.mem _ kind]⟩
  · rintro (⟨rfl, named⟩ | ⟨undeclared, deep⟩)
    · have declares : Instance.schema.Declares name ⟨"instanceName", .text none⟩ :=
        ⟨named.symm, [], _, rfl, by simp⟩
      exact .text declares rfl
    · exact .deep undeclared deep

/-- What is printed for a setting of all windows or of an instance can be set again, and changes
nothing. Only the name of an instance becomes the text that was printed, which is always another
value, and so does what is not declared and nested deeper than any text is read. -/
theorem set_printed (known : schema = Settings.schema ∨ schema = Instance.schema)
    (formed : document.bag.Formed) (whole : document.bag.NoDoubles)
    (found : schema.get? document.bag name = some value) (disk : Disk) :
    let after := (act schema document disk (.set name value.compact)).1.bag
    let isKept := ¬Text.OnlyBlanks name ∧
      (schema = Instance.schema ∧ Text.lower name = Text.lower "instanceName" ∨
        schema.Undeclared name ∧ maximumDepth < value.depth)
    (act schema document disk (.get name)).2.2 = .ok [value.compact] ∧
      (∀ other, Text.lower other ≠ Text.lower name →
        schema.get? after other = schema.get? document.bag other) ∧
      (schema.get? after name = schema.get? document.bag name ↔ ¬isKept) ∧
      (isKept → schema.get? after name = some (.string value.compact)) := by
  intro after isKept
  have ranged : schema.Ranged := by
    obtain rfl | rfl := known
    · exact Settings.schema_ranged
    · exact Instance.schema_ranged
  have signed : schema.Signed := by
    obtain rfl | rfl := known
    · exact Settings.schema_signed
    · exact Instance.schema_signed
  obtain ⟨others, keeps, stands⟩ := act_set_printed ranged signed formed whole found disk
  rw [keepsPrinted_iff known] at keeps stands
  refine ⟨?_, others, ⟨fun same kept => ?_, fun notKept => ?_⟩, keeps⟩
  · rw [act, found]
  · have read := keeps kept
    rw [same, found] at read
    exact value.string_compact_ne (Option.some.inj read).symm
  · exact (stands notKept).trans found.symm

def workBag : Bag :=
  ((Bag.empty.set "instanceName" (.string "work")).1.set "theme" (.string "dark")).1

def workDocument : Document :=
  .ofBag ⟨"/work.json"⟩ workBag true

def workDisk : Disk :=
  ⟨[(["work.json"], .file (Document.contents workBag))], []⟩

theorem workBag_formed : workBag.Formed := by
  have held (text : String) : (Json.string text).Held (maximumDepth - 1) :=
    ⟨trivial, trivial, Nat.zero_le _⟩
  exact ((Bag.held_empty.set _ (held "work")).set _ (held "dark")).formed

theorem workBag_noDoubles : workBag.NoDoubles := by
  have whole (text : String) : (Json.string text).NoDoubles := trivial
  exact (Bag.noDoubles_empty.set _ (whole "work")).set _ (whole "dark")

/-- The printed theme stays the theme, while the printed name is another name. -/
theorem set_printed_work :
    Instance.schema.get? (act Instance.schema workDocument workDisk (.set "Theme" "\"dark\"")).1.bag
        "Theme" = Instance.schema.get? workBag "Theme" ∧
      Instance.schema.get? (act Instance.schema workDocument workDisk
        (.set "instanceName" "\"work\"")).1.bag "instanceName" = some (.string "\"work\"") := by
  have theme := set_printed (.inr rfl) (show workDocument.bag.Formed from workBag_formed)
    workBag_noDoubles (rfl : Instance.schema.get? _ "Theme" = some (.string "dark")) workDisk
  have name := set_printed (.inr rfl) (show workDocument.bag.Formed from workBag_formed)
    workBag_noDoubles (rfl : Instance.schema.get? _ "instanceName" = some (.string "work")) workDisk
  constructor
  · refine theme.2.2.1.mpr ?_
    rintro ⟨-, ⟨-, same⟩ | ⟨-, deep⟩⟩
    · exact absurd same (by decide +kernel)
    · exact absurd deep (by decide)
  · exact name.2.2.2 ⟨by simp [Text.OnlyBlanks, Text.isBlank], .inl ⟨rfl, rfl⟩⟩

theorem not_printed_stays :
    ¬∀ (document : Document) (disk : Disk) (name text : String),
      document.bag.Formed → document.bag.NoDoubles →
        (act Instance.schema document disk (.get name)).2.2 = .ok [text] →
          Instance.schema.get? (act Instance.schema document disk (.set name text)).1.bag name =
            Instance.schema.get? document.bag name := by
  intro stays
  have same := stays workDocument workDisk "instanceName" "\"work\"" workBag_formed
    workBag_noDoubles rfl
  have before : Instance.schema.get? workDocument.bag "instanceName" = some (.string "work") := rfl
  have after : Instance.schema.get? (act Instance.schema workDocument workDisk
      (.set "instanceName" "\"work\"")).1.bag "instanceName" = some (.string "\"work\"") := rfl
  rw [before, after] at same
  exact absurd (Json.string.inj (Option.some.inj same)) (by decide)

end CommandLine
end Waymark
