import Waymark.Json.Decode
import Waymark.Proofs.Json.Written
/-!
# Trees of written values

The tokens of a value are read as the tree of that value, in which what is nested too deep is
marked. A decoder takes the value from the tree if nothing is.
-/

namespace Waymark.Json

def Parsed.Gives {α : Type} {tokens : List Token} (parsed : Parsed α tokens) (value : α)
    (rest : List Token) : Prop :=
  parsed.value = value ∧ parsed.rest = rest

namespace Parsed

variable {α β γ : Type} {tokens : List Token}

theorem Gives.behind {parsed : Parsed α tokens} {value : α} {rest : List Token}
    (gives : parsed.Gives value rest) (first : Token) :
    (parsed.behind : Parsed α (first :: tokens)).Gives value rest :=
  gives

theorem Gives.map {parsed : Parsed α tokens} {value : α} {rest : List Token}
    (gives : parsed.Gives value rest) (f : α → β) : (parsed.map f).Gives (f value) rest :=
  ⟨congrArg f gives.1, gives.2⟩

theorem Gives.andThen {first : Parsed α tokens} {value : α} {middle : List Token}
    (gives : first.Gives value middle) {second : (tokens : List Token) → Parsed β tokens}
    {other : β} {rest : List Token} (more : (second middle).Gives other rest) (f : α → β → γ) :
    (first.andThen (second first.rest) f).Gives (f value other) rest := by
  obtain ⟨rfl, rfl⟩ := gives
  obtain ⟨rfl, rfl⟩ := more
  exact ⟨rfl, rfl⟩

end Parsed

variable {room : Nat} {rest : List Token}

theorem readItem_gives {tokens middle : List Token} {item : Tree} {items : Items}
    (first : (readTree room tokens).Gives item middle)
    (more : (readMoreItems room middle).Gives items rest) :
    (readItem room tokens).Gives (.item item items) rest := by
  unfold readItem
  exact first.andThen more Items.item

theorem readMember_gives {tokens middle : List Token} {name : String} {value : Tree}
    {members : Members} (first : (readTree room tokens).Gives value middle)
    (more : (readMoreMembers room middle).Gives members rest) :
    (readMember room (.string name :: .colon :: tokens)).Gives (.member (some name) value members)
      rest := by
  unfold readMember readNamed
  exact first.andThen more (Members.member (some name))

theorem written_ne_close (value : Json) (rest others : List Token) :
    written value ++ rest ≠ .closeArray :: others := by
  cases value <;> simp [written]

theorem container_of_room {tree : Tree} (positive : room ≠ 0) : container room tree = tree :=
  if_neg positive

namespace Tree

mutual

def within (room : Nat) : Json → Tree
  | .null => .null
  | .boolean value => .boolean value
  | .number value => .number value
  | .string value => .string value
  | .array items => container room (.array (withinItems (room - 1) items))
  | .object members => container room (.object (withinMembers (room - 1) members))

def withinItems (room : Nat) : List Json → Items
  | [] => .close
  | item :: items => .item (within room item) (withinItems room items)

def withinMembers (room : Nat) : List (String × Json) → Members
  | [] => .close
  | (name, value) :: members => .member (some name) (within room value) (withinMembers room members)

end

mutual

theorem within_of_shallow (room : Nat) (value : Json) (shallow : value.depth ≤ room) :
    within room value = ofJson value := by
  match value with
  | .null | .boolean _ | .number _ | .string _ => rfl
  | .array items =>
      -- The room falls with the nesting, so the array itself is never too deep.
      simp only [depth] at shallow
      rw [within, container_of_room (by omega),
        withinItems_of_shallow (room - 1) items (by omega), ofJson]
  | .object members =>
      simp only [depth] at shallow
      rw [within, container_of_room (by omega),
        withinMembers_of_shallow (room - 1) members (by omega), ofJson]

theorem withinItems_of_shallow (room : Nat) (items : List Json) (shallow : depthItems items ≤ room) :
    withinItems room items = ofItems items := by
  match items with
  | [] => rfl
  | item :: items =>
      simp only [depthItems] at shallow
      rw [withinItems, within_of_shallow room item (by omega),
        withinItems_of_shallow room items (by omega), ofItems]

theorem withinMembers_of_shallow (room : Nat) (members : List (String × Json))
    (shallow : depthMembers members ≤ room) : withinMembers room members = ofMembers members := by
  match members with
  | [] => rfl
  | (name, value) :: members =>
      simp only [depthMembers] at shallow
      rw [withinMembers, within_of_shallow room value (by omega),
        withinMembers_of_shallow room members (by omega), ofMembers]

end

end Tree

mutual

theorem readTree_written (room : Nat) (value : Json) (rest : List Token) :
    (readTree room (written value ++ rest)).Gives (Tree.within room value) rest := by
  match value with
  | .null | .boolean _ | .number _ | .string _ =>
      simp only [written, List.cons_append, List.nil_append, readTree]
      exact ⟨rfl, rfl⟩
  | .array items =>
      have content := readItems_written (room - 1) items rest
      have shape : written (.array items) ++ rest =
          .openArray :: (writtenItems true items ++ .closeArray :: rest) := by simp [written]
      rw [shape, readTree]
      exact (content.map (container room ∘ Tree.array)).behind .openArray
  | .object members =>
      have content := readMembers_written (room - 1) members rest
      have shape : written (.object members) ++ rest =
          .openObject :: (writtenMembers true members ++ .closeObject :: rest) := by simp [written]
      rw [shape, readTree]
      exact (content.map (container room ∘ Tree.object)).behind .openObject

theorem readItems_written (room : Nat) (items : List Json) (rest : List Token) :
    (readItems room (writtenItems true items ++ .closeArray :: rest)).Gives
      (Tree.withinItems room items) rest := by
  match items with
  | [] =>
      simp only [writtenItems, List.nil_append, readItems]
      exact ⟨rfl, rfl⟩
  | item :: items =>
      have first := readTree_written room item (writtenItems false items ++ .closeArray :: rest)
      have more := readMoreItems_written room items rest
      have shape : writtenItems true (item :: items) ++ .closeArray :: rest =
          written item ++ (writtenItems false items ++ .closeArray :: rest) := by
        simp [writtenItems, separator]
      rw [shape, readItems]
      · exact readItem_gives first more
      · exact fun others => written_ne_close item _ others

theorem readMoreItems_written (room : Nat) (items : List Json) (rest : List Token) :
    (readMoreItems room (writtenItems false items ++ .closeArray :: rest)).Gives
      (Tree.withinItems room items) rest := by
  match items with
  | [] =>
      simp only [writtenItems, List.nil_append, readMoreItems]
      exact ⟨rfl, rfl⟩
  | item :: items =>
      have first := readTree_written room item (writtenItems false items ++ .closeArray :: rest)
      have more := readMoreItems_written room items rest
      have shape : writtenItems false (item :: items) ++ .closeArray :: rest =
          .comma :: (written item ++ (writtenItems false items ++ .closeArray :: rest)) := by
        simp [writtenItems, separator]
      rw [shape, readMoreItems]
      exact readItem_gives first more

theorem readMembers_written (room : Nat) (members : List (String × Json)) (rest : List Token) :
    (readMembers room (writtenMembers true members ++ .closeObject :: rest)).Gives
      (Tree.withinMembers room members) rest := by
  match members with
  | [] =>
      simp only [writtenMembers, List.nil_append, readMembers]
      exact ⟨rfl, rfl⟩
  | (name, value) :: members =>
      have first := readTree_written room value
        (writtenMembers false members ++ .closeObject :: rest)
      have more := readMoreMembers_written room members rest
      have shape : writtenMembers true ((name, value) :: members) ++ .closeObject :: rest =
          .string name :: .colon ::
            (written value ++ (writtenMembers false members ++ .closeObject :: rest)) := by
        simp [writtenMembers, separator]
      rw [shape, readMembers]
      · exact readMember_gives first more
      · simp

theorem readMoreMembers_written (room : Nat) (members : List (String × Json))
    (rest : List Token) :
    (readMoreMembers room (writtenMembers false members ++ .closeObject :: rest)).Gives
      (Tree.withinMembers room members) rest := by
  match members with
  | [] =>
      simp only [writtenMembers, List.nil_append, readMoreMembers]
      exact ⟨rfl, rfl⟩
  | (name, value) :: members =>
      have first := readTree_written room value
        (writtenMembers false members ++ .closeObject :: rest)
      have more := readMoreMembers_written room members rest
      have shape : writtenMembers false ((name, value) :: members) ++ .closeObject :: rest =
          .comma :: .string name :: .colon ::
            (written value ++ (writtenMembers false members ++ .closeObject :: rest)) := by
        simp [writtenMembers, separator]
      rw [shape, readMoreMembers]
      exact readMember_gives first more

end

theorem tree_ofGlyphs_write {spacing : Spacing} (blank : spacing.Blank) {value : Json}
    (fits : value.Fits) :
    Tree.ofGlyphs (glyphs (write spacing 0 value)) =
      (Tree.within maximumDepth value.reread, false) := by
  have cut := tokens_write blank 0 value fits ends_nil
  have read := readTree_written maximumDepth value.reread []
  rw [tokens, List.append_nil] at cut
  rw [List.append_nil] at cut read
  rw [Tree.ofGlyphs, cut, read.1, read.2]
  rfl

namespace Decoder

mutual

theorem json_ofJson (value : Json) (canonical : value.Canonical) :
    json (Tree.ofJson value) = .ok value := by
  match value with
  | .null | .boolean _ | .number _ | .string _ => simp only [Tree.ofJson, json]
  | .array items =>
      simp only [Tree.ofJson, json, jsonItems_ofItems items canonical]
      rfl
  | .object members =>
      have ordered := orderMembers_of_ordered canonical.1
      simp only [Tree.ofJson, json, jsonMembers_ofMembers members canonical.2, Except.map,
        ofMembers, ordered]

theorem jsonItems_ofItems (items : List Json) (canonical : CanonicalItems items) :
    jsonItems (Tree.ofItems items) = .ok items := by
  match items with
  | [] => simp only [Tree.ofItems, jsonItems]
  | item :: items =>
      simp only [Tree.ofItems, jsonItems, json_ofJson item canonical.1,
        jsonItems_ofItems items canonical.2]
      rfl

theorem jsonMembers_ofMembers (members : List (String × Json))
    (canonical : CanonicalMembers members) :
    jsonMembers (Tree.ofMembers members) = .ok members := by
  match members with
  | [] => simp only [Tree.ofMembers, jsonMembers]
  | (name, value) :: members =>
      simp only [Tree.ofMembers, jsonMembers, json_ofJson value canonical.1,
        jsonMembers_ofMembers members canonical.2]
      rfl

end

theorem json_container {tree : Tree} : json (container 0 tree) = .error .malformed := by
  rw [container, if_pos rfl, json]

mutual

/-- What is nested too deep is refused, wherever it stands. -/
theorem json_within_of_deep (room : Nat) (value : Json) (canonical : value.Canonical)
    (deep : room < value.depth) : json (Tree.within room value) = .error .malformed := by
  match value with
  | .null | .boolean _ | .number _ | .string _ => simp [depth] at deep
  | .array items =>
      rcases Nat.eq_zero_or_pos room with rfl | some
      · exact json_container
      · simp only [depth] at deep
        rw [Tree.within, container_of_room (Nat.ne_of_gt some), json,
          jsonItems_within_of_deep (room - 1) items canonical (by omega)]
        rfl
  | .object members =>
      rcases Nat.eq_zero_or_pos room with rfl | some
      · exact json_container
      · simp only [depth] at deep
        rw [Tree.within, container_of_room (Nat.ne_of_gt some), json,
          jsonMembers_within_of_deep (room - 1) members canonical.2 (by omega)]
        rfl

theorem jsonItems_within_of_deep (room : Nat) (items : List Json) (canonical : CanonicalItems items)
    (deep : room < depthItems items) :
    jsonItems (Tree.withinItems room items) = .error .malformed := by
  match items with
  | [] => simp [depthItems] at deep
  | item :: items =>
      rw [Tree.withinItems, jsonItems]
      by_cases first : room < item.depth
      · rw [json_within_of_deep room item canonical.1 first]
        rfl
      · have later : room < depthItems items := by
          simp only [depthItems] at deep
          omega
        rw [Tree.within_of_shallow room item (Nat.le_of_not_lt first), json_ofJson item canonical.1,
          jsonItems_within_of_deep room items canonical.2 later]
        rfl

theorem jsonMembers_within_of_deep (room : Nat) (members : List (String × Json))
    (canonical : CanonicalMembers members) (deep : room < depthMembers members) :
    jsonMembers (Tree.withinMembers room members) = .error .malformed := by
  match members with
  | [] => simp [depthMembers] at deep
  | (key, value) :: members =>
      rw [Tree.withinMembers, jsonMembers]
      by_cases first : room < value.depth
      · rw [json_within_of_deep room value canonical.1 first]
        rfl
      · have later : room < depthMembers members := by
          simp only [depthMembers] at deep
          omega
        rw [Tree.within_of_shallow room value (Nat.le_of_not_lt first),
          json_ofJson value canonical.1, jsonMembers_within_of_deep room members canonical.2 later]
        rfl

end

theorem members_json (content : Members) : members json content = jsonMembers content := by
  match content with
  | .close | .fault _ => simp only [members, jsonMembers]
  | .member key value rest => simp only [members, jsonMembers, members_json rest]

end Decoder

theorem decodeGlyphs_write {α : Type} (decoder : Decoder α) {spacing : Spacing}
    (blank : spacing.Blank) {value : Json} (fits : value.Fits) :
    decodeGlyphs decoder (glyphs (write spacing 0 value)) =
      decoder (Tree.within maximumDepth value.reread) := by
  rw [decodeGlyphs, tree_ofGlyphs_write blank fits]
  cases taken : decoder (Tree.within maximumDepth value.reread) <;> simp [taken, bind, Except.bind]

theorem decodeBytes_write {α : Type} (decoder : Decoder α) {spacing : Spacing}
    (blank : spacing.Blank) {value : Json} (fits : value.Fits) :
    decodeBytes decoder (String.ofList (write spacing 0 value)).toUTF8 =
      decoder (Tree.within maximumDepth value.reread) := by
  rw [decodeBytes, Glyph.ofBytes_toUTF8, Glyph.ofString, String.toList_ofList]
  exact decodeGlyphs_write decoder blank fits

end Waymark.Json
