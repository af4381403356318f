import Waymark.Proofs.Document.Contents
import Waymark.Settings
/-!
# Texts that set settings

A text that sets a declared setting always leaves a document that reads back. A text that sets
another one is read as a document of its own, with as much room for nesting as the document of the
settings has, where it then stands one level deeper. With the last level used up, the settings are
written and not read again.
-/

namespace Waymark

open Json (maximumDepth)

def Kind.Fits : Kind → Prop
  | .number _ low high => (Number.integer low).Fits ∧ (Number.integer high).Fits
  | _ => True

def Schema.Fits (schema : Schema) : Prop :=
  ∀ declaration ∈ schema, declaration.kind.Fits

theorem Settings.schema_fits : Settings.schema.Fits := by
  simp [Schema.Fits, Settings.schema, Kind.Fits, Number.Fits, Text.signedLimit, Text.countLimit]

theorem fits_of_int64? {text : String} {value : Int} (read : Text.int64? text = some value) :
    (Number.integer value).Fits := by
  obtain ⟨found, -, inside⟩ := Option.bind_eq_some_iff.mp read
  rw [Option.ite_none_right_eq_some, Bool.and_eq_true, decide_eq_true_eq,
    decide_eq_true_eq] at inside
  obtain ⟨⟨least, greatest⟩, same⟩ := inside
  cases same
  simp only [Number.Fits, Text.signedLimit, Text.countLimit] at *
  omega

theorem fits_clamp {low high value : Int} (least : (Number.integer low).Fits)
    (greatest : (Number.integer high).Fits) (inside : (Number.integer value).Fits) :
    (Number.integer (Text.clamp low high value)).Fits := by
  unfold Text.clamp
  split
  · exact least
  split
  · exact greatest
  · exact inside

theorem Declaration.parse_held {declaration : Declaration} (fits : declaration.kind.Fits)
    {raw : String} {value : Json} (parsed : declaration.parse raw = .ok value) : value.Held 0 := by
  unfold parse at parsed
  dsimp only at parsed
  split at parsed
  · split at parsed
    · cases parsed
      exact ⟨trivial, trivial, Nat.le_refl 0⟩
    · cases parsed
  · rename_i low high kind
    rw [kind] at fits
    split at parsed
    · rename_i read
      cases parsed
      exact ⟨fits_clamp fits.1 fits.2 (fits_of_int64? read), trivial, Nat.le_refl 0⟩
    · cases parsed
  · cases parsed
    exact ⟨trivial, trivial, Nat.le_refl 0⟩

theorem Schema.undeclaredValue_cases (raw : String) :
    (undeclaredValue raw).Held 0 ∨ (undeclaredValue raw).Held maximumDepth ∧
      Json.decode Json.Decoder.json raw = .ok (undeclaredValue raw) := by
  unfold undeclaredValue
  split
  · exact .inr ⟨Json.held_of_decode ‹_›, ‹_›⟩
  · exact .inl ⟨trivial, trivial, Nat.le_refl 0⟩

/-- Only a setting that is not declared can be given a value that is nested at all. -/
theorem Schema.assignment_cases {schema : Schema} (fits : schema.Fits) {name raw key : String}
    {value : Json} (accepted : schema.assignment name raw = .ok (key, value)) :
    value.Held 0 ∨ value.Held maximumDepth ∧ key ≠ "" ∧ schema.declared? name = none ∧
      Json.decode Json.Decoder.json raw = .ok value := by
  unfold assignment at accepted
  split at accepted
  · cases accepted
  rename_i solid
  split at accepted
  · rename_i declaration found
    obtain ⟨parsed, ok, same⟩ := of_map_ok accepted
    cases same
    exact .inl (Declaration.parse_held (fits declaration (List.mem_of_find?_eq_some found)) ok)
  · rename_i undeclared
    cases accepted
    refine (undeclaredValue_cases raw).imp_right fun given =>
      ⟨given.1, fun blank => solid ?_, undeclared, given.2⟩
    rw [blank]
    decide

namespace Json

def nested : Nat → Json
  | 0 => .array []
  | count + 1 => .array [nested count]

def brackets (count : Nat) : String :=
  String.ofList (List.replicate count '[' ++ List.replicate count ']')

theorem depth_nested (count : Nat) : (nested count).depth = count + 1 := by
  induction count with
  | zero => rfl
  | succ count ih => simp [nested, depth, depthItems, ih]

theorem noDoubles_nested (count : Nat) : (nested count).NoDoubles := by
  induction count with
  | zero => trivial
  | succ count ih => exact ⟨ih, trivial⟩

theorem fits_nested (count : Nat) : (nested count).Fits := by
  induction count with
  | zero => trivial
  | succ count ih => exact ⟨ih, trivial⟩

theorem canonical_nested (count : Nat) : (nested count).Canonical := by
  induction count with
  | zero => trivial
  | succ count ih => exact ⟨ih, trivial⟩

theorem write_nested (count depth : Nat) : write .compact depth (nested count) =
    List.replicate (count + 1) '[' ++ List.replicate (count + 1) ']' := by
  induction count generalizing depth with
  | zero => rfl
  | succ count ih =>
      have opening : List.replicate (count + 2) '[' = '[' :: List.replicate (count + 1) '[' :=
        List.replicate_succ
      have closing : List.replicate (count + 2) ']' = List.replicate (count + 1) ']' ++ [']'] :=
        List.replicate_succ'
      rw [nested, write, writeItems, writeItems, ih, opening, closing]
      simp [bracket, comma, Spacing.compact]

theorem decode_brackets {count : Nat} (inside : count < maximumDepth) :
    decode Decoder.json (brackets (count + 1)) = .ok (nested count) := by
  have shallow : (nested count).depth ≤ maximumDepth := depth_nested count ▸ inside
  rw [decode, Glyph.ofString, brackets, String.toList_ofList, ← write_nested count 0,
    decodeGlyphs_write _ Spacing.blank_compact (fits_nested count),
    reread_of_noDoubles (noDoubles_nested count), Tree.within_of_shallow _ _ shallow,
    Decoder.json_ofJson _ (canonical_nested count)]

end Json

theorem Schema.assignment_brackets {count : Nat} (inside : count < maximumDepth) :
    assignment Settings.schema "deep" (Json.brackets (count + 1)) =
      .ok ("deep", Json.nested count) := by
  have value : undeclaredValue (Json.brackets (count + 1)) = Json.nested count := by
    rw [undeclaredValue, Json.decode_brackets inside]
  unfold assignment
  rw [if_neg (by decide), ← value]
  rfl

namespace Document

theorem assign_bag {schema : Schema} (document : Document) (disk : Disk) {name raw key : String}
    {value : Json} (accepted : schema.assignment name raw = .ok (key, value)) :
    (document.assign schema disk name raw).1.bag = (document.bag.set key value).1 := by
  have after := (set_bag document key value).1
  unfold assign setText
  rw [accepted]
  dsimp only
  generalize document.set key value = outcome at after ⊢
  obtain ⟨left, changed⟩ := outcome
  cases changed with
  | false => exact after
  | true => exact (sameBag_save _ disk soon).1.trans after

/-- Settings that an accepted text was assigned to are read from their file again, with all their
names, unless the text is a document with all the nesting that there is room for. Such settings are
refused, and opened as if there were none. -/
theorem assigned_read_unless_deep {schema : Schema} (fits : schema.Fits) (disk : Disk) (path : Path)
    (hasWriter : Bool) {name raw key : String} {value : Json}
    (accepted : schema.assignment name raw = .ok (key, value)) {before after : Disk}
    (written : before.replace path
      (contents ((«open» disk path hasWriter).assign schema disk name raw).1.bag) =
        (after, .ok ())) :
    let bag := ((«open» disk path hasWriter).assign schema disk name raw).1.bag
    (value.depth < maximumDepth →
      read after path = .ok (some bag.reread) ∧ bag.reread.names = bag.names) ∧
    (maximumDepth ≤ value.depth →
      (value.depth = maximumDepth ∧ schema.declared? name = none ∧
        Json.decode Json.Decoder.json raw = .ok value) ∧
      read after path = .error (.json .malformed) ∧ load after path = .empty) := by
  intro bag
  have assigned : bag = ((load disk path).set key value).1 :=
    assign_bag («open» disk path hasWriter) disk accepted
  have loaded := load_held disk path
  have given := Schema.assignment_cases fits accepted
  have back := @read_replaced before after path bag written
  constructor
  · intro shallow
    have held : bag.Held := by
      rw [assigned]
      refine Bag.forall_value_set (Json.Held (maximumDepth - 1)) loaded key ?_
      rcases given with flat | ⟨nested, -⟩
      · exact ⟨flat.fits, flat.canonical, Nat.le_trans flat.shallow (Nat.zero_le _)⟩
      · exact ⟨nested.fits, nested.canonical, Nat.le_pred_of_lt shallow⟩
    rw [contents, Json.indented, Bag.ofBytes_write_shallow Json.Spacing.blank_indented held] at back
    exact ⟨back, bag.names_reread⟩
  · intro deep
    -- A value that is nested at all can only come from the text of an undeclared setting.
    obtain ⟨nested, nonempty, undeclared, decoded⟩ := given.resolve_left fun flat =>
      absurd (Nat.le_trans deep flat.shallow) (by decide)
    have formed : bag.Formed := by
      rw [assigned]
      exact Bag.forall_value_set (fun value => value.Fits ∧ value.Canonical) loaded.formed key
        ⟨nested.fits, nested.canonical⟩
    have present : ∃ property ∈ bag.properties, maximumDepth ≤ property.value.depth := by
      rw [assigned]
      obtain ⟨property, inside, same⟩ := Bag.exists_depth_set nonempty value
      exact ⟨property, inside, same ▸ deep⟩
    rw [contents, Json.indented,
      Bag.ofBytes_write_deep Json.Spacing.blank_indented formed present] at back
    refine ⟨⟨Nat.le_antisymm nested.shallow deep, undeclared, decoded⟩, back, ?_⟩
    rw [load, back]

def darkTheme : Bag :=
  (Bag.empty.set "theme" (.string "dark")).1

def settingsDisk (bag : Bag) : Disk :=
  ⟨[(["s.json"], .file (contents bag))], []⟩

def withBrackets (count : Nat) : Bag :=
  ((«open» (settingsDisk darkTheme) ⟨"/s.json"⟩ true).assign Settings.schema (settingsDisk darkTheme)
    "deep" (Json.brackets count)).1.bag

theorem load_darkTheme : load (settingsDisk darkTheme) ⟨"/s.json"⟩ = darkTheme := by
  have held : darkTheme.Held := Bag.held_empty.set _ ⟨trivial, trivial, Nat.zero_le _⟩
  have whole : darkTheme.NoDoubles := Bag.noDoubles_empty.set _ trivial
  exact load_of_contents? held whole rfl

/-- One pair of brackets decides whether the theme is still known after the settings are opened
again. -/
theorem brackets_read_unless_deep :
    load (settingsDisk darkTheme) ⟨"/s.json"⟩ = darkTheme ∧
      read (settingsDisk (withBrackets 126)) ⟨"/s.json"⟩ = .ok (some (withBrackets 126).reread) ∧
      read (settingsDisk (withBrackets 127)) ⟨"/s.json"⟩ = .error (.json .malformed) ∧
      load (settingsDisk (withBrackets 127)) ⟨"/s.json"⟩ = .empty := by
  have written : ∀ bag, (settingsDisk darkTheme).replace ⟨"/s.json"⟩ (contents bag) =
      (settingsDisk bag, .ok ()) := fun _ => rfl
  have shallow := assigned_read_unless_deep Settings.schema_fits (settingsDisk darkTheme) ⟨"/s.json"⟩ true
    (Schema.assignment_brackets (show 125 < maximumDepth by decide)) (written (withBrackets 126))
  have deep := assigned_read_unless_deep Settings.schema_fits (settingsDisk darkTheme) ⟨"/s.json"⟩ true
    (Schema.assignment_brackets (show 126 < maximumDepth by decide)) (written (withBrackets 127))
  rw [Json.depth_nested] at shallow deep
  have lost := (deep.2 (by decide)).2
  exact ⟨load_darkTheme, (shallow.1 (by decide)).1, lost⟩

end Document
end Waymark
