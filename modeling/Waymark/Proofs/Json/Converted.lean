import Waymark.Proofs.Json.Record
import Waymark.Proofs.Json.Tree
import Waymark.Proofs.Text.Scan
/-!
# Converted values

A decoder takes what a value stands for from the value itself. If it takes nothing from strings, it
also takes it from a string that holds the document of the value, whatever blanks are around it.
-/

namespace Waymark.Json

theorem solid_integerText (value : Int) : Text.Solid (integerText value) := by
  have digits : ∀ c ∈ Nat.toDigits 10 value.natAbs, Text.isBlank c = false := fun c inside =>
    Text.not_isBlank_of_isDigit ((Numeral.wellFormed_toDigits false value.natAbs).whole c inside)
  have nonempty := (Numeral.wellFormed_toDigits false value.natAbs).nonempty
  unfold integerText
  dsimp only
  split
  · exact Text.solid_of_all (List.cons_ne_nil _ _) (List.forall_mem_cons.mpr ⟨by decide, digits⟩)
  · exact Text.solid_of_all nonempty digits

theorem solid_bracket {opening closing : Char} (opens : Text.isBlank opening = false)
    (closes : Text.isBlank closing = false) (spacing : Spacing) (depth : Nat) (isEmpty : Bool)
    (content : List Char) :
    Text.Solid (bracket spacing depth opening closing isEmpty content) := by
  unfold bracket
  split
  · exact Text.solid_of_ends opens closes []
  · exact Text.solid_of_ends opens closes (content ++ spacing.lineStart depth)

theorem solid_write (spacing : Spacing) (depth : Nat) {value : Json} (whole : value.NoDoubles) :
    Text.Solid (write spacing depth value) := by
  cases value with
  | null => exact Text.solid_of_ends (show Text.isBlank 'n' = false by decide) (by decide) ['u', 'l']
  | boolean value =>
      cases value with
      | true =>
          exact Text.solid_of_ends (show Text.isBlank 't' = false by decide) (by decide) ['r', 'u']
      | false =>
          exact Text.solid_of_ends (show Text.isBlank 'f' = false by decide) (by decide)
            ['a', 'l', 's']
  | number value =>
      cases value with
      | integer value => exact solid_integerText value
      | double value => exact whole.elim
  | string text => exact Text.solid_of_ends (by decide) (by decide) (text.toList.flatMap escape)
  | array items => exact solid_bracket (by decide) (by decide) spacing depth _ _
  | object members => exact solid_bracket (by decide) (by decide) spacing depth _ _

variable {α β : Type} {decoder : Decoder α} {room : Nat} {value : Json} {x : α}

/-- A decoder takes something from a value, which can be written and read again in limited room. -/
structure Stands (decoder : Decoder α) (room : Nat) (value : Json) (x : α) : Prop where
  whole : value.NoDoubles
  fits : value.Fits
  shallow : value.depth ≤ room
  taken : decoder (Tree.ofJson value) = .ok x

theorem convert?_of_taken (taken : decoder (Tree.ofJson value) = .ok x) :
    convert? decoder value = some x := by
  unfold convert?
  rw [taken]

theorem Stands.mono (stands : Stands decoder room value x) {more : Nat} (wider : room ≤ more) :
    Stands decoder more value x :=
  ⟨stands.whole, stands.fits, Nat.le_trans stands.shallow wider, stands.taken⟩

theorem Stands.map (stands : Stands decoder room value x) (f : α → β) :
    Stands (fun tree => (decoder tree).map f) room value (f x) :=
  ⟨stands.whole, stands.fits, stands.shallow, congrArg (Except.map f) stands.taken⟩

theorem Stands.decode (stands : Stands decoder maximumDepth value x) {spacing : Spacing}
    (blank : spacing.Blank) : decode decoder (String.ofList (write spacing 0 value)) = .ok x := by
  rw [Json.decode, Glyph.ofString, String.toList_ofList]
  refine (decodeGlyphs_write decoder blank stands.fits).trans ?_
  rw [reread_of_noDoubles stands.whole, Tree.within_of_shallow _ _ stands.shallow, stands.taken]

theorem Stands.convert?_text (stands : Stands decoder maximumDepth value x)
    (refuses : ∀ text, decoder (.string text) = .error .mismatched) {spacing : Spacing}
    (blank : spacing.Blank) {before after : List Char}
    (blankBefore : ∀ c ∈ before, Text.isBlank c = true)
    (blankAfter : ∀ c ∈ after, Text.isBlank c = true) :
    convert? decoder (.string (String.ofList (before ++ write spacing 0 value ++ after))) = some x := by
  rw [convert?, Tree.ofJson, refuses]
  dsimp only
  rw [Text.trim_surrounded blankBefore blankAfter (solid_write spacing 0 stands.whole),
    stands.decode blank]
  rfl

def IsPlain : Json → Prop
  | .boolean _ | .string _ => True
  | _ => False

theorem stands_object {members : List (String × Json)}
    (plain : ∀ member ∈ members, member.2.IsPlain)
    (taken : decoder (Tree.ofJson (.object members)) = .ok x) :
    Stands decoder 1 (.object members) x := by
  have each : ∀ member ∈ members, member.2.NoDoubles ∧ member.2.Fits ∧ member.2.depth ≤ 0 := by
    intro member inside
    have leaf := plain member inside
    cases shape : member.2 <;> rw [shape] at leaf <;>
      first | exact leaf.elim | exact ⟨trivial, trivial, Nat.le_refl 0⟩
  exact {
    whole := everyNumberMembers_iff.mpr fun member inside => (each member inside).1
    fits := everyNumberMembers_iff.mpr fun member inside => (each member inside).2.1
    shallow := Nat.succ_le_succ
      (depthMembers_le_iff.mpr fun member inside => (each member inside).2.2)
    taken }

theorem stands_ofMembers {members : List (String × Json)}
    (plain : ∀ member ∈ members, member.2.IsPlain)
    (taken : decoder (Tree.ofJson (.ofMembers members)) = .ok x) :
    Stands decoder 1 (.ofMembers members) x :=
  stands_object (fun member inside => plain member (mem_orderMembers inside)) taken

theorem stands_list {f : β → Json} {g : β → α} {values : List β}
    (each : ∀ value ∈ values, Stands decoder room (f value) (g value)) :
    Stands (Decoder.list decoder) (room + 1) (.array (values.map f)) (values.map g) where
  whole := everyNumberItems_iff.mpr (List.forall_mem_map.mpr fun value inside =>
    (each value inside).whole)
  fits := everyNumberItems_iff.mpr (List.forall_mem_map.mpr fun value inside =>
    (each value inside).fits)
  shallow := Nat.succ_le_succ (depthItems_le_iff.mpr (List.forall_mem_map.mpr fun value inside =>
    (each value inside).shallow))
  taken := Decoder.items_ofItems fun value inside => (each value inside).taken

theorem stands_mapping {f : β → Json} {g : β → α} {members : List (String × β)}
    (each : ∀ member ∈ members, Stands decoder room (f member.2) (g member.2)) :
    Stands (Decoder.mapping decoder) (room + 1)
      (.object (members.map fun member => (member.1, f member.2)))
      (members.map fun member => (member.1, g member.2)) where
  whole := everyNumberMembers_iff.mpr (List.forall_mem_map.mpr fun member inside =>
    (each member inside).whole)
  fits := everyNumberMembers_iff.mpr (List.forall_mem_map.mpr fun member inside =>
    (each member inside).fits)
  shallow := Nat.succ_le_succ (depthMembers_le_iff.mpr (List.forall_mem_map.mpr
    fun member inside => (each member inside).shallow))
  taken := by
    rw [Tree.ofJson, Decoder.mapping]
    induction members with
    | nil => rfl
    | cons first rest ih =>
        obtain ⟨here, there⟩ := List.forall_mem_cons.mp each
        simp only [List.map_cons, Tree.ofMembers, Decoder.members, Decoder.name, here.taken, ih there]
        rfl

end Waymark.Json
