import Waymark.Proofs.Bag.Difference
import Waymark.Proofs.History.Entries
import Waymark.Proofs.Json.Converted
import Waymark.Proofs.Settings.Favorites
import Waymark.Proofs.Terminal
/-!
# Typed values

A bag gives back what was set, as the type that it had, whether it was set as a value or as the text
of a document of that value. Text is given back as it is, even where it is a document.
-/

namespace Waymark.Bag

open Json

def IsSigned (value : Int) : Prop :=
  -(Text.signedLimit : Int) ≤ value ∧ value < Text.signedLimit

def IsCount (value : Int) : Prop :=
  0 ≤ value ∧ value < Text.countLimit

/-- A record has its members in the order of their names as a value, and as they are declared in a
document. -/
def arrange (isSorted : Bool) (members : List (String × Json)) : Json :=
  if isSorted then .ofMembers members else .object members

theorem stands_arrange {α : Type} {decoder : Decoder α} {members : List (String × Json)} {x : α}
    (plain : ∀ member ∈ members, member.2.IsPlain)
    (sorted : decoder (Tree.ofJson (.ofMembers members)) = .ok x)
    (declared : decoder (Tree.ofJson (.object members)) = .ok x) (isSorted : Bool) :
    Stands decoder 1 (arrange isSorted members) x := by
  cases isSorted with
  | true => exact stands_ofMembers plain sorted
  | false => exact stands_object plain declared

theorem plain_of_strings {members : List (String × Json)}
    (strings : ∀ member ∈ members, ∃ text, member.2 = .string text) :
    ∀ member ∈ members, member.2.IsPlain := by
  intro member inside
  obtain ⟨text, same⟩ := strings member inside
  rw [same]
  trivial

theorem stands_integer {low high value : Int} (between : low ≤ value ∧ value < high)
    (least : -(Text.signedLimit : Int) ≤ low) (greatest : high ≤ Text.countLimit) (room : Nat) :
    Stands (Decoder.integer low high) room (.integer value) value where
  whole := trivial
  fits := ⟨Int.le_trans least between.1, Int.lt_of_lt_of_le between.2 greatest⟩
  shallow := Nat.zero_le room
  taken := by simp [Json.integer, Tree.ofJson, Decoder.integer, between]

theorem stands_signed {value : Int} (signed : IsSigned value) (room : Nat) :
    Stands Decoder.int64 room (.integer value) value :=
  stands_integer signed (Int.le_refl _) (by decide) room

theorem stands_count {value : Int} (count : IsCount value) (room : Nat) :
    Stands Decoder.count64 room (.integer value) value :=
  stands_integer count (by decide) (Int.le_refl _) room

inductive Item where
  | text
  | number
  | favorite
  | terminal
  | entry

namespace Item

def Content : Item → Type
  | .text => String
  | .number => Int
  | .favorite => Favorite
  | .terminal => Terminal
  | .entry => Entry

def decoder : (item : Item) → Decoder item.Content
  | .text => Decoder.text
  | .number => Decoder.int64
  | .favorite => Favorite.decoder
  | .terminal => Terminal.decoder
  | .entry => Entry.decoder

def Admits : (item : Item) → item.Content → Prop
  | .number, value => IsSigned value
  | .entry, visit => Instant.Valid (Entry.visited visit)
  | _, _ => True

def json (isSorted : Bool) : (item : Item) → item.Content → Json
  | .text, value => .string value
  | .number, value => .integer value
  | .favorite, value => arrange isSorted (Favorite.members value)
  | .terminal, value => arrange isSorted (Terminal.members value)
  | .entry, value => arrange isSorted (Entry.members value)

/-- What is kept of an item. The sequence of an entry is not. -/
def kept : (item : Item) → item.Content → item.Content
  | .entry, value => Entry.bare value
  | _, value => value

theorem stands (isSorted : Bool) (item : Item) {x : item.Content} (admitted : item.Admits x) :
    Stands item.decoder 1 (item.json isSorted x) (item.kept x) := by
  cases item with
  | text => exact ⟨trivial, trivial, Nat.zero_le 1, rfl⟩
  | number => exact stands_signed admitted 1
  | favorite =>
      exact stands_arrange (plain_of_strings (Favorite.members_strings x))
        (Favorite.decoder_ofMembers x) (Favorite.decoder_members x) isSorted
  | terminal =>
      exact stands_arrange (Terminal.members_plain x) (Terminal.decoder_ofMembers x)
        (Terminal.decoder_members x) isSorted
  | entry =>
      exact stands_arrange (plain_of_strings (Entry.members_strings x))
        (Entry.decoder_ofMembers admitted) (Entry.decoder_members admitted) isSorted

end Item

inductive Form where
  | flag
  | signed
  | count
  | text
  | optionalText
  | list (item : Item)
  | mapping

namespace Form

def Content : Form → Type
  | .flag => Bool
  | .signed => Int
  | .count => Int
  | .text => String
  | .optionalText => Option String
  | .list item => List item.Content
  | .mapping => List (String × Int)

def decoder : (form : Form) → Decoder form.Content
  | .flag => Decoder.boolean
  | .signed => Decoder.int64
  | .count => Decoder.count64
  | .text => Decoder.text
  | .optionalText => Decoder.optional Decoder.text
  | .list item => Decoder.list item.decoder
  | .mapping => fun tree => (Decoder.mapping Decoder.int64 tree).map orderMembers

def Admits : (form : Form) → form.Content → Prop
  | .signed, value => IsSigned value
  | .count, value => IsCount value
  | .list item, (values : List item.Content) => ∀ value ∈ values, item.Admits value
  | .mapping, (members : List (String × Int)) => ∀ member ∈ members, IsSigned member.2
  | _, _ => True

def json (isSorted : Bool) : (form : Form) → form.Content → Json
  | .flag, value => .boolean value
  | .signed, value => .integer value
  | .count, value => .integer value
  | .text, value => .string value
  | .optionalText, (value : Option String) => value.elim .null .string
  | .list item, (values : List item.Content) => .array (values.map (item.json isSorted))
  | .mapping, (members : List (String × Int)) =>
      arrange isSorted (members.map fun member => (member.1, .integer member.2))

/-- What is kept of a value. A mapping can be given by its members in any order, and is kept in the
order of their names. -/
def kept : (form : Form) → form.Content → form.Content
  | .list item, (values : List item.Content) => values.map item.kept
  | .mapping, (members : List (String × Int)) => orderMembers members
  | _, value => value

def isText : Form → Bool
  | .text | .optionalText => true
  | _ => false

theorem stands_members {members : List (String × Int)}
    (signed : ∀ member ∈ members, IsSigned member.2) :
    Stands (decoder .mapping) 2 (.object (members.map fun member => (member.1, .integer member.2)))
      (orderMembers members) := by
  have stands := Stands.map (stands_mapping (g := id) fun member inside =>
    stands_signed (signed member inside) 1) orderMembers
  rwa [show members.map (fun member => (member.1, id member.2)) = members from List.map_id members]
    at stands

-- As a value, a mapping has its members in order, which is how it is kept anyway.
theorem stands_ordered {members : List (String × Int)}
    (signed : ∀ member ∈ members, IsSigned member.2) :
    Stands (decoder .mapping) 2
      (.ofMembers (members.map fun member => (member.1, .integer member.2)))
      (orderMembers members) := by
  have stands := stands_members fun member inside => signed member (mem_orderMembers inside)
  rwa [orderMembers_of_ordered (orderMembers_ordered members), ← orderMembers_map] at stands

theorem stands (isSorted : Bool) (form : Form) {x : form.Content} (admitted : form.Admits x) :
    Stands form.decoder 2 (form.json isSorted x) (form.kept x) := by
  cases form with
  | flag => exact ⟨trivial, trivial, Nat.zero_le 2, rfl⟩
  | signed => exact stands_signed admitted 2
  | count => exact stands_count admitted 2
  | text => exact ⟨trivial, trivial, Nat.zero_le 2, rfl⟩
  | optionalText =>
      cases (x : Option String) with
      | none => exact ⟨trivial, trivial, Nat.zero_le 2, rfl⟩
      | some value => exact ⟨trivial, trivial, Nat.zero_le 2, rfl⟩
  | list item => exact stands_list fun value inside => item.stands isSorted (admitted value inside)
  | mapping =>
      cases isSorted with
      | false => exact stands_members admitted
      | true => exact stands_ordered admitted

theorem refuses {form : Form} (other : form.isText = false) (text : String) :
    form.decoder (.string text) = .error .mismatched := by
  cases form <;> first | rfl | cases other

end Form

variable {name other : String}

theorem get?_set {α : Type} {decoder : Decoder α} (bag : Bag) (nonempty : name ≠ "")
    (same : Text.lower other = Text.lower name) {value : Json} (whole : value.NoDoubles) :
    (bag.set name value).1.get? decoder other = convert? decoder value := by
  rw [get?, value?_congr _ same, value?_set nonempty whole, Option.bind_some]

theorem get?_set_string {α : Type} {decoder : Decoder α} (bag : Bag) (nonempty : name ≠ "")
    (same : Text.lower other = Text.lower name) (text : String) :
    (bag.set name (.string text)).1.get? decoder other = convert? decoder (.string text) :=
  bag.get?_set nonempty same (show Json.NoDoubles (.string text) from trivial)

/-- What is set is given back as the type that it had, under its name in any case: as a value, and,
unless it is text, as the text of a document of the value, in any layout and with any blanks around
it. Text that is set is given back as it is. -/
theorem get?_set_typed (bag : Bag) (form : Form) {x : form.Content} (admitted : form.Admits x)
    (nonempty : name ≠ "") (same : Text.lower other = Text.lower name) :
    (bag.set name (form.json true x)).1.get? form.decoder other = some (form.kept x) ∧
      (form.isText = false →
        ∀ (isSorted : Bool) (spacing : Spacing) (before after : List Char), spacing.Blank →
          (∀ c ∈ before, Text.isBlank c = true) → (∀ c ∈ after, Text.isBlank c = true) →
          (bag.set name (.string (String.ofList
            (before ++ write spacing 0 (form.json isSorted x) ++ after)))).1.get?
              form.decoder other = some (form.kept x)) ∧
      ∀ text : String, (bag.set name (.string text)).1.get? Decoder.text other = some text := by
  refine ⟨?_, fun document isSorted spacing before after blank blankBefore blankAfter => ?_,
    fun text => ?_⟩
  · have stands := form.stands true admitted
    rw [get?_set bag nonempty same stands.whole]
    exact convert?_of_taken stands.taken
  · have stands := (form.stands isSorted admitted).mono (show 2 ≤ maximumDepth by decide)
    rw [get?_set_string bag nonempty same]
    exact stands.convert?_text (Form.refuses document) blank blankBefore blankAfter
  · rw [get?_set_string bag nonempty same]
    exact convert?_of_taken rfl

def visits : List Entry :=
  [⟨"/home", "Home", some "home.svg", ⟨1700000000, 5⟩, 7⟩, ⟨"/tmp", "", none, .epoch, 0⟩]

def limits : List Int :=
  [-9223372036854775808, 9223372036854775807]

theorem get?_set_typed_visits :
    (empty.set "visits" (Form.json true (.list .entry) visits)).1.get? (Decoder.list Entry.decoder)
        "Visits" = some (visits.map Entry.bare) ∧
      (empty.set "limits" (.string "\u00a0[-9223372036854775808,9223372036854775807]\n")).1.get?
        (Decoder.list Decoder.int64) "LIMITS" = some limits := by
  have valid : ∀ visit ∈ visits, visit.visited.Valid := by decide
  have signed : ∀ limit ∈ limits, IsSigned limit := by
    simp only [limits, IsSigned, Text.signedLimit, List.forall_mem_cons]
    decide
  have lowerVisits : Text.lower "Visits" = Text.lower "visits" := by decide +kernel
  have lowerLimits : Text.lower "LIMITS" = Text.lower "limits" := by decide +kernel
  obtain ⟨asValue, -⟩ :=
    get?_set_typed empty (.list .entry) (x := visits) valid (by decide) lowerVisits
  obtain ⟨-, asText, -⟩ :=
    get?_set_typed empty (.list .number) (x := limits) signed (by decide) lowerLimits
  refine ⟨asValue, ?_⟩
  have document : String.ofList
      (['\u00a0'] ++ write .compact 0 (Form.json true (.list .number) limits) ++ ['\n']) =
        "\u00a0[-9223372036854775808,9223372036854775807]\n" := by decide +kernel
  have read := asText rfl true .compact ['\u00a0'] ['\n'] Spacing.blank_compact
    (List.forall_mem_singleton.mpr (by decide)) (List.forall_mem_singleton.mpr (by decide))
  rw [document] at read
  exact read

end Waymark.Bag
