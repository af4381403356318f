import Waymark.Proofs.Json.Tree
import Waymark.Proofs.Outcome
/-!
# What documents give

Whatever text is read, the whole numbers of a value fit 64 bits, the members of its objects are in
order, and its containers are nested no deeper than there was room for.
-/

namespace Waymark.Json

def NumbersFit (tokens : List Token) : Prop :=
  ∀ number, .number number ∈ tokens → number.Fits

theorem NumbersFit.of_cons {token : Token} {tokens : List Token}
    (fit : NumbersFit (token :: tokens)) : NumbersFit tokens :=
  fun number member => fit number (List.mem_cons_of_mem _ member)

theorem numbersFit_nil : NumbersFit [] := by
  simp [NumbersFit]

namespace Token

theorem punctuation_ne_number {c : Char} {number : Number} :
    punctuation? c ≠ some (.number number) := by
  unfold punctuation?
  repeat' split
  all_goals simp

theorem scanNumber_fits {negative : Bool} {text rest : List Glyph} {number : Number}
    (scanned : scanNumber negative text = .ok (.number number, rest)) : number.Fits := by
  unfold scanNumber at scanned
  split at scanned
  · simp only [Except.ok.injEq, Prod.mk.injEq, ofNumeral] at scanned
    split at scanned
    · rename_i value
      cases scanned.1
      exact fits_of_value? value
    · cases scanned.1
  · cases scanned

theorem scanLiteral_ne_number {literal : Token} {letters : List Char} {text rest : List Glyph}
    {number : Number} (other : literal ≠ .number number) :
    scanLiteral literal letters text ≠ .ok (.number number, rest) := by
  unfold scanLiteral
  split
  · simp [other]
  · simp

theorem scanQuoted_ne_number {text rest : List Glyph} {number : Number} :
    scanQuoted text ≠ .ok (.number number, rest) := by
  unfold scanQuoted ofPieces
  repeat' split
  all_goals simp

theorem scan_fits {c : Char} {text rest : List Glyph} {number : Number}
    (scanned : scan c text = .ok (.number number, rest)) : number.Fits := by
  unfold scan at scanned
  split at scanned
  · rename_i mark
    simp only [Except.ok.injEq, Prod.mk.injEq] at scanned
    exact absurd (scanned.1 ▸ mark) punctuation_ne_number
  repeat' split at scanned
  · exact absurd scanned scanQuoted_ne_number
  · exact absurd scanned (scanLiteral_ne_number nofun)
  · exact absurd scanned (scanLiteral_ne_number nofun)
  · exact absurd scanned (scanLiteral_ne_number nofun)
  · exact scanNumber_fits scanned
  · exact scanNumber_fits scanned
  · cases scanned

end Token

theorem Token.scan_stop {c : Char} {text : List Glyph} {number : Number} :
    scan c text ≠ .error (.number number) := by
  unfold scan
  split
  · simp
  repeat' split
  all_goals
    first
    | unfold scanQuoted ofBrokenString
      split <;> simp
    | unfold scanLiteral
      split <;> simp
    | unfold scanNumber
      split <;> simp
    | simp

theorem numbersFit_tokens (text : List Glyph) : NumbersFit (tokens text) := by
  fun_induction tokens text with
  | case1 => exact numbersFit_nil
  | case2 => simp [NumbersFit]
  | case3 c text space ih => exact ih
  | case4 c text solid token failed =>
      rintro number member
      rw [← List.mem_singleton.mp member] at failed
      exact absurd failed Token.scan_stop
  | case5 c text solid token rest scanned ih =>
      rintro number member
      rcases List.mem_cons.mp member with here | there
      · rw [← here] at scanned
        exact Token.scan_fits scanned
      · exact ih number there

mutual

def Tree.Sound (room : Nat) : Tree → Prop
  | .number value => value.Fits
  | .array items => room ≠ 0 ∧ items.Sound (room - 1)
  | .object members => room ≠ 0 ∧ members.Sound (room - 1)
  | _ => True

def Items.Sound (room : Nat) : Items → Prop
  | .item value rest => value.Sound room ∧ rest.Sound room
  | _ => True

def Members.Sound (room : Nat) : Members → Prop
  | .member _ value rest => value.Sound room ∧ rest.Sound room
  | _ => True

end

theorem container_sound {room : Nat} {tree : Tree} (sound : room ≠ 0 → tree.Sound room) :
    (container room tree).Sound room := by
  unfold container
  split
  · trivial
  · exact sound ‹_›

mutual

theorem readTree_sound (room : Nat) (tokens : List Token) (fit : NumbersFit tokens) :
    (readTree room tokens).value.Sound room ∧ NumbersFit (readTree room tokens).rest := by
  unfold readTree
  split
  case h_4 => exact ⟨fit _ List.mem_cons_self, fit.of_cons⟩
  case h_10 tokens =>
      have content := readItems_sound (room - 1) tokens fit.of_cons
      exact ⟨container_sound fun positive => ⟨positive, content.1⟩, content.2⟩
  case h_11 tokens =>
      have content := readMembers_sound (room - 1) tokens fit.of_cons
      exact ⟨container_sound fun positive => ⟨positive, content.1⟩, content.2⟩
  all_goals exact ⟨trivial, by first | exact fit.of_cons | exact numbersFit_nil⟩
termination_by (tokens.length, 0)

theorem readItems_sound (room : Nat) (tokens : List Token) (fit : NumbersFit tokens) :
    (readItems room tokens).value.Sound room ∧ NumbersFit (readItems room tokens).rest := by
  unfold readItems
  split
  · exact ⟨trivial, fit.of_cons⟩
  · exact readItem_sound room _ fit
termination_by (tokens.length, 2)

theorem readItem_sound (room : Nat) (tokens : List Token) (fit : NumbersFit tokens) :
    (readItem room tokens).value.Sound room ∧ NumbersFit (readItem room tokens).rest := by
  have first := readTree_sound room tokens fit
  have more := readMoreItems_sound room (readTree room tokens).rest first.2
  unfold readItem
  exact ⟨⟨first.1, more.1⟩, more.2⟩
termination_by (tokens.length, 1)
decreasing_by
  · exact Prod.Lex.right _ (by decide)
  · exact Parsed.precedes _ (by decide)

theorem readMoreItems_sound (room : Nat) (tokens : List Token) (fit : NumbersFit tokens) :
    (readMoreItems room tokens).value.Sound room ∧ NumbersFit (readMoreItems room tokens).rest := by
  unfold readMoreItems
  split
  · exact ⟨trivial, numbersFit_nil⟩
  · exact ⟨trivial, fit.of_cons⟩
  · exact readItem_sound room _ fit.of_cons
  · exact ⟨trivial, numbersFit_nil⟩
termination_by (tokens.length, 0)

theorem readMembers_sound (room : Nat) (tokens : List Token) (fit : NumbersFit tokens) :
    (readMembers room tokens).value.Sound room ∧ NumbersFit (readMembers room tokens).rest := by
  unfold readMembers
  split
  · exact ⟨trivial, fit.of_cons⟩
  · exact readMember_sound room _ fit
termination_by (tokens.length, 2)

theorem readMember_sound (room : Nat) (tokens : List Token) (fit : NumbersFit tokens) :
    (readMember room tokens).value.Sound room ∧ NumbersFit (readMember room tokens).rest := by
  unfold readMember
  split
  · exact ⟨trivial, numbersFit_nil⟩
  · exact readNamed_sound room _ _ fit.of_cons
  · exact readNamed_sound room _ _ fit.of_cons
  · exact ⟨trivial, numbersFit_nil⟩
  · exact ⟨trivial, numbersFit_nil⟩
termination_by (tokens.length, 1)

theorem readNamed_sound (room : Nat) (name : Option String) (tokens : List Token)
    (fit : NumbersFit tokens) :
    (readNamed room name tokens).value.Sound room ∧ NumbersFit (readNamed room name tokens).rest := by
  unfold readNamed
  split
  · exact ⟨⟨trivial, trivial⟩, numbersFit_nil⟩
  · rename_i tokens
    have first := readTree_sound room tokens fit.of_cons
    have more := readMoreMembers_sound room (readTree room tokens).rest first.2
    exact ⟨⟨first.1, more.1⟩, more.2⟩
  · exact ⟨⟨trivial, trivial⟩, numbersFit_nil⟩
termination_by (tokens.length, 0)
decreasing_by
  all_goals subst_vars
  · exact Prod.Lex.left _ _ (Nat.lt_succ_self _)
  · exact Prod.Lex.left _ _ (Nat.lt_succ_of_le (Parsed.rest_le _))

theorem readMoreMembers_sound (room : Nat) (tokens : List Token) (fit : NumbersFit tokens) :
    (readMoreMembers room tokens).value.Sound room ∧
      NumbersFit (readMoreMembers room tokens).rest := by
  unfold readMoreMembers
  split
  · exact ⟨trivial, numbersFit_nil⟩
  · exact ⟨trivial, fit.of_cons⟩
  · exact readMember_sound room _ fit.of_cons
  · exact ⟨trivial, numbersFit_nil⟩
termination_by (tokens.length, 0)

end

/-- What a document can hold: whole numbers of 64 bits, ordered members, and no more nesting than
there is room for. -/
structure Held (room : Nat) (value : Json) : Prop where
  fits : value.Fits
  canonical : value.Canonical
  shallow : value.depth ≤ room

theorem held_array {items : List Json} {room : Nat} (positive : 1 ≤ room)
    (each : ∀ item ∈ items, item.Held (room - 1)) : (array items).Held room where
  fits := everyNumberItems_iff.mpr fun item inside => (each item inside).fits
  canonical := canonicalItems_iff.mpr fun item inside => (each item inside).canonical
  shallow := by
    have inside : depthItems items ≤ room - 1 :=
      depthItems_le_iff.mpr fun item member => (each item member).shallow
    simp only [depth]
    omega

theorem held_ofStrings {members : List (String × Json)} {room : Nat} (positive : 1 ≤ room)
    (strings : ∀ member ∈ members, ∃ text, member.2 = .string text) :
    (ofMembers members).Held room := by
  have each : ∀ member ∈ orderMembers members, member.2.Held 0 := by
    intro member inside
    obtain ⟨text, same⟩ := strings member (mem_orderMembers inside)
    rw [same]
    exact ⟨trivial, trivial, Nat.le_refl 0⟩
  exact {
    fits := everyNumberMembers_iff.mpr fun member inside => (each member inside).fits
    canonical := ⟨orderMembers_ordered members,
      canonicalMembers_iff.mpr fun member inside => (each member inside).canonical⟩
    shallow := by
      have flat : depthMembers (orderMembers members) ≤ 0 :=
        depthMembers_le_iff.mpr fun member inside => (each member inside).shallow
      simp only [ofMembers, depth]
      omega }

theorem noDoubles_ofStrings {members : List (String × Json)}
    (strings : ∀ member ∈ members, ∃ text, member.2 = .string text) :
    (ofMembers members).NoDoubles := by
  refine everyNumberMembers_iff.mpr fun member inside => ?_
  obtain ⟨text, same⟩ := strings member (mem_orderMembers inside)
  rw [same]
  trivial

namespace Decoder

mutual

theorem json_held {room : Nat} {tree : Tree} {value : Json} (sound : tree.Sound room)
    (taken : json tree = .ok value) : value.Held room := by
  match tree with
  | .null | .boolean _ | .string _ =>
      cases taken
      exact ⟨trivial, trivial, Nat.zero_le _⟩
  | .number _ =>
      cases taken
      exact ⟨sound, trivial, Nat.zero_le _⟩
  | .unreadable | .broken _ | .deep _ => cases taken
  | .array content =>
      obtain ⟨items, ok, rfl⟩ := of_map_ok taken
      exact held_array (Nat.one_le_iff_ne_zero.mpr sound.1) (jsonItems_held sound.2 ok)
  | .object content =>
      obtain ⟨members, ok, rfl⟩ := of_map_ok taken
      have held := fun member inside => jsonMembers_held sound.2 ok member (mem_orderMembers inside)
      exact {
        fits := everyNumberMembers_iff.mpr fun member inside => (held member inside).fits
        canonical := ⟨orderMembers_ordered members,
          canonicalMembers_iff.mpr fun member inside => (held member inside).canonical⟩
        shallow := by
          have inside : depthMembers (orderMembers members) ≤ room - 1 :=
            depthMembers_le_iff.mpr fun member inside => (held member inside).shallow
          have positive := sound.1
          simp only [ofMembers, depth]
          omega }

theorem jsonItems_held {room : Nat} {items : Items} {values : List Json} (sound : items.Sound room)
    (taken : jsonItems items = .ok values) : ∀ value ∈ values, value.Held room := by
  match items with
  | .close =>
      cases taken
      simp
  | .fault _ => cases taken
  | .item value rest =>
      obtain ⟨first, ok, taken⟩ := of_bind_ok taken
      obtain ⟨others, okRest, taken⟩ := of_bind_ok taken
      cases taken
      exact List.forall_mem_cons.mpr ⟨json_held sound.1 ok, jsonItems_held sound.2 okRest⟩

theorem jsonMembers_held {room : Nat} {members : Members} {values : List (String × Json)}
    (sound : members.Sound room) (taken : jsonMembers members = .ok values) :
    ∀ member ∈ values, member.2.Held room := by
  match members with
  | .close =>
      cases taken
      simp
  | .fault _ => cases taken
  | .member key value rest =>
      obtain ⟨name, -, taken⟩ := of_bind_ok taken
      obtain ⟨first, ok, taken⟩ := of_bind_ok taken
      obtain ⟨others, okRest, taken⟩ := of_bind_ok taken
      cases taken
      exact List.forall_mem_cons.mpr ⟨json_held sound.1 ok, jsonMembers_held sound.2 okRest⟩

end

theorem mapping_held {room : Nat} {tree : Tree} {members : List (String × Json)}
    (sound : tree.Sound room) (taken : mapping json tree = .ok members) :
    ∀ member ∈ members, member.2.Held (room - 1) := by
  unfold mapping at taken
  split at taken
  · rw [members_json] at taken
    exact jsonMembers_held sound.2 taken
  · cases taken
  · cases taken

end Decoder

theorem decodeGlyphs_sound {α : Type} {decoder : Decoder α} {text : List Glyph} {value : α}
    (decoded : decodeGlyphs decoder text = .ok value) :
    ∃ tree : Tree, tree.Sound maximumDepth ∧ decoder tree = .ok value := by
  obtain ⟨taken, ok, ended⟩ := of_bind_ok (show _ >>= _ = _ from decoded)
  have sound := readTree_sound maximumDepth _ (numbersFit_tokens text)
  refine ⟨_, sound.1, ?_⟩
  split at ended
  · cases ended
  · cases ended
    exact ok

theorem held_of_decode {text : String} {value : Json}
    (decoded : decode Decoder.json text = .ok value) : value.Held maximumDepth := by
  obtain ⟨tree, sound, taken⟩ := decodeGlyphs_sound decoded
  exact Decoder.json_held sound taken

end Waymark.Json
