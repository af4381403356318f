import Waymark.Json.Token
/-!
# Syntax trees

The arrays and objects of a document, as far as they could be read. Faults stand where reading
meets them, so that whoever takes values from the tree from left to right finds the first one that
matters to it.
-/

namespace Waymark.Json

mutual

/-- A container that is nested too deep to be read, but not to be skipped, is `deep`. -/
inductive Tree where
  | null
  | boolean (value : Bool)
  | number (value : Number)
  | string (value : String)
  | unreadable
  | broken (fault : Break)
  | array (items : Items)
  | object (members : Members)
  | deep (container : Tree)

inductive Items where
  | close
  | fault (fault : Fault)
  | item (value : Tree) (rest : Items)

inductive Members where
  | close
  | fault (fault : Break)
  | member (name : Option String) (value : Tree) (rest : Members)

end

structure Parsed (α : Type) (tokens : List Token) where
  value : α
  rest : List Token
  rest_le : rest.length ≤ tokens.length

namespace Parsed

def stop {α : Type} {tokens : List Token} (value : α) : Parsed α tokens :=
  ⟨value, [], Nat.zero_le _⟩

def behind {α : Type} {first : Token} {tokens : List Token} (parsed : Parsed α tokens) :
    Parsed α (first :: tokens) :=
  ⟨parsed.value, parsed.rest, Nat.le_succ_of_le parsed.rest_le⟩

def map {α β : Type} {tokens : List Token} (f : α → β) (parsed : Parsed α tokens) :
    Parsed β tokens :=
  ⟨f parsed.value, parsed.rest, parsed.rest_le⟩

def andThen {α β γ : Type} {tokens : List Token} (first : Parsed α tokens)
    (second : Parsed β first.rest) (f : α → β → γ) : Parsed γ tokens :=
  ⟨f first.value second.value, second.rest, Nat.le_trans second.rest_le first.rest_le⟩

/-- The rest is smaller for a reading that ranks below the one it belongs to. -/
theorem precedes {α : Type} {tokens : List Token} (parsed : Parsed α tokens) {a b : Nat}
    (below : a < b) :
    Prod.Lex (· < ·) (· < ·) (parsed.rest.length, a) (tokens.length, b) := by
  rcases Nat.lt_or_eq_of_le parsed.rest_le with less | same
  · exact Prod.Lex.left _ _ less
  · rw [same]
    exact Prod.Lex.right _ below

end Parsed

def maximumDepth : Nat :=
  127

def container (room : Nat) (tree : Tree) : Tree :=
  if room = 0 then .deep tree else tree

mutual

def readTree (room : Nat) (tokens : List Token) : Parsed Tree tokens :=
  match tokens with
  | [] => .stop (.broken (.both .truncated))
  | .null :: rest => ⟨.null, rest, Nat.le_succ _⟩
  | .boolean value :: rest => ⟨.boolean value, rest, Nat.le_succ _⟩
  | .number value :: rest => ⟨.number value, rest, Nat.le_succ _⟩
  | .string value :: rest => ⟨.string value, rest, Nat.le_succ _⟩
  | .unreadableNumber :: rest => ⟨.unreadable, rest, Nat.le_succ _⟩
  | .unreadableString :: rest => ⟨.unreadable, rest, Nat.le_succ _⟩
  | .broken fault :: _ => .stop (.broken fault)
  | .brokenString fault :: _ => .stop (.broken fault)
  | .openArray :: tokens => ((readItems (room - 1) tokens).map (container room ∘ .array)).behind
  | .openObject :: tokens =>
      ((readMembers (room - 1) tokens).map (container room ∘ .object)).behind
  | .closeArray :: _ => .stop (.broken (.both .malformed))
  | .closeObject :: _ => .stop (.broken (.both .malformed))
  | .comma :: _ => .stop (.broken (.both .malformed))
  | .colon :: _ => .stop (.broken (.both .malformed))
termination_by (tokens.length, 0)

def readItems (room : Nat) (tokens : List Token) : Parsed Items tokens :=
  match tokens with
  | .closeArray :: rest => ⟨.close, rest, Nat.le_succ _⟩
  | tokens => readItem room tokens
termination_by (tokens.length, 2)

def readItem (room : Nat) (tokens : List Token) : Parsed Items tokens :=
  let value := readTree room tokens
  value.andThen (readMoreItems room value.rest) .item
termination_by (tokens.length, 1)
decreasing_by
  · exact Prod.Lex.right _ (by decide)
  · exact Parsed.precedes _ (by decide)

def readMoreItems (room : Nat) (tokens : List Token) : Parsed Items tokens :=
  match tokens with
  | [] => .stop (.fault .truncated)
  | .closeArray :: rest => ⟨.close, rest, Nat.le_succ _⟩
  | .comma :: tokens => (readItem room tokens).behind
  | _ => .stop (.fault .malformed)
termination_by (tokens.length, 0)

def readMembers (room : Nat) (tokens : List Token) : Parsed Members tokens :=
  match tokens with
  | .closeObject :: rest => ⟨.close, rest, Nat.le_succ _⟩
  | tokens => readMember room tokens
termination_by (tokens.length, 2)

def readMember (room : Nat) (tokens : List Token) : Parsed Members tokens :=
  match tokens with
  | [] => .stop (.fault (.both .truncated))
  | .string name :: tokens => (readNamed room (some name) tokens).behind
  | .unreadableString :: tokens => (readNamed room none tokens).behind
  | .brokenString fault :: _ => .stop (.fault fault)
  | _ => .stop (.fault (.both .malformed))
termination_by (tokens.length, 1)

def readNamed (room : Nat) (name : Option String) (tokens : List Token) : Parsed Members tokens :=
  match tokens with
  | [] => .stop (.member name (.broken (.both .truncated)) .close)
  | .colon :: tokens =>
      let value := readTree room tokens
      (value.andThen (readMoreMembers room value.rest) (.member name)).behind
  | _ => .stop (.member name (.broken (.both .malformed)) .close)
termination_by (tokens.length, 0)
decreasing_by
  · exact Prod.Lex.left _ _ (Nat.lt_succ_self _)
  · exact Prod.Lex.left _ _ (Nat.lt_succ_of_le (Parsed.rest_le _))

def readMoreMembers (room : Nat) (tokens : List Token) : Parsed Members tokens :=
  match tokens with
  | [] => .stop (.fault (.both .truncated))
  | .closeObject :: rest => ⟨.close, rest, Nat.le_succ _⟩
  | .comma :: tokens => (readMember room tokens).behind
  | _ => .stop (.fault (.both .malformed))
termination_by (tokens.length, 0)

end

namespace Tree

def ofGlyphs (text : List Glyph) : Tree × Bool :=
  let parsed := readTree maximumDepth (tokens text)
  (parsed.value, !parsed.rest.isEmpty)

mutual

def ofJson : Json → Tree
  | .null => .null
  | .boolean value => .boolean value
  | .number value => .number value
  | .string value => .string value
  | .array items => .array (ofItems items)
  | .object members => .object (ofMembers members)

def ofItems : List Json → Items
  | [] => .close
  | item :: items => .item (ofJson item) (ofItems items)

def ofMembers : List (String × Json) → Members
  | [] => .close
  | (name, value) :: members => .member (some name) (ofJson value) (ofMembers members)

end

end Tree
end Waymark.Json
