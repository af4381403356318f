import Waymark.Proofs.Json.Reread
/-!
# The tokens of written values

A value is written as the tokens of its parts, whatever blanks stand between them.
-/

namespace Waymark.Json

def separator (isFirst : Bool) : List Token :=
  if isFirst then [] else [.comma]

mutual

def written : Json → List Token
  | .null => [.null]
  | .boolean value => [.boolean value]
  | .number value => [.number value]
  | .string value => [.string value]
  | .array items => .openArray :: writtenItems true items ++ [.closeArray]
  | .object members => .openObject :: writtenMembers true members ++ [.closeObject]

def writtenItems (isFirst : Bool) : List Json → List Token
  | [] => []
  | item :: items => separator isFirst ++ written item ++ writtenItems false items

def writtenMembers (isFirst : Bool) : List (String × Json) → List Token
  | [] => []
  | (name, value) :: members =>
      separator isFirst ++ .string name :: .colon :: written value ++ writtenMembers false members

end

def AllSpaces (text : List Char) : Prop :=
  ∀ c ∈ text, isSpace (.char c) = true

structure Spacing.Blank (spacing : Spacing) : Prop where
  lineStart : ∀ depth, AllSpaces (spacing.lineStart depth)
  afterColon : AllSpaces spacing.afterColon

theorem Spacing.blank_compact : Spacing.compact.Blank where
  lineStart := by simp [AllSpaces, Spacing.compact]
  afterColon := by simp [AllSpaces, Spacing.compact]

theorem Spacing.blank_indented : Spacing.indented.Blank where
  lineStart depth := by
    intro c member
    rcases List.mem_cons.mp member with newline | blank
    · rw [newline]
      decide
    · rw [(List.mem_replicate.mp blank).2]
      decide
  afterColon := by
    intro c member
    rw [List.mem_singleton.mp member]
    decide

theorem tokens_spaces {text : List Char} (blank : AllSpaces text) (rest : List Glyph) :
    tokens (glyphs text ++ rest) = tokens rest := by
  induction text with
  | nil => rfl
  | cons c others ih =>
      obtain ⟨first, after⟩ := List.forall_mem_cons.mp blank
      change tokens (.char c :: (glyphs others ++ rest)) = _
      rw [tokens, if_pos first]
      exact ih after

theorem ends_char {c : Char} (mark : c.isDigit = false ∧ c ≠ '.' ∧ c ≠ 'e' ∧ c ≠ 'E')
    (rest : List Glyph) : Ends (.char c :: rest) := by
  rintro glyph ⟨⟩
  simpa [isDigit] using mark

theorem ends_spaces {text : List Char} (blank : AllSpaces text) {rest : List Glyph}
    (ends : Ends rest) : Ends (glyphs text ++ rest) := by
  cases text with
  | nil => exact ends
  | cons c others =>
      refine ends_char ?_ _
      have space := blank c List.mem_cons_self
      simp only [isSpace, Bool.or_eq_true, decide_eq_true_eq, Glyph.char.injEq] at space
      rcases space with ((rfl | rfl) | rfl) | rfl <;> decide

theorem tokens_of_scan {c : Char} {text rest : List Glyph} {token : Token}
    (solid : isSpace (.char c) = false) (scanned : Token.scan c text = .ok (token, rest)) :
    tokens (.char c :: text) = token :: tokens rest := by
  rw [tokens, solid, if_neg Bool.false_ne_true]
  split
  · rename_i failed
    rw [scanned] at failed
    cases failed
  · rename_i found
    rw [scanned] at found
    cases found
    rfl

theorem punctuation_marks {c : Char} {token : Token} (known : Token.punctuation? c = some token) :
    isSpace (.char c) = false ∧ c.isDigit = false ∧ c ≠ '.' ∧ c ≠ 'e' ∧ c ≠ 'E' := by
  unfold Token.punctuation? at known
  iterate 6
    split at known
    · subst c
      decide
  cases known

theorem tokens_punctuation {c : Char} {token : Token}
    (known : Token.punctuation? c = some token) (text : List Glyph) :
    tokens (.char c :: text) = token :: tokens text := by
  refine tokens_of_scan (punctuation_marks known).1 ?_
  rw [Token.scan, known]

theorem tokens_string (text : String) (rest : List Glyph) :
    tokens (glyphs (stringText text) ++ rest) = .string text :: tokens rest := by
  rw [stringText, List.cons_append, glyphs, List.map_cons, List.map_append, List.cons_append,
    List.append_assoc]
  exact tokens_of_scan (by decide) (Token.scanQuoted_escaped text rest)

theorem scanWord_append (letters : List Char) (rest : List Glyph) :
    scanWord letters (glyphs letters ++ rest) = .ok rest := by
  induction letters with
  | nil => rfl
  | cons letter others ih =>
      change scanWord (letter :: others) (.char letter :: (glyphs others ++ rest)) = _
      rw [scanWord, if_pos rfl]
      exact ih

theorem scan_digit {c : Char} (digit : c.isDigit = true) (text : List Glyph) :
    Token.scan c text = Token.scanNumber false (.char c :: text) := by
  have noMark : Token.punctuation? c = none := by
    unfold Token.punctuation?
    repeat' split
    all_goals subst_vars; first | rfl | cases digit
  have other : ∀ d : Char, d.isDigit = false → c ≠ d := by
    rintro d letter rfl
    rw [digit] at letter
    cases letter
  rw [Token.scan, noMark]
  simp only [other '"' rfl, other 'n' rfl, other 't' rfl, other 'f' rfl, other '-' rfl, digit,
    if_false, if_true]

theorem isSpace_of_isDigit {c : Char} (digit : c.isDigit = true) : isSpace (.char c) = false := by
  cases space : isSpace (.char c) with
  | false => rfl
  | true =>
      simp only [isSpace, Bool.or_eq_true, decide_eq_true_eq, Glyph.char.injEq] at space
      rcases space with ((rfl | rfl) | rfl) | rfl <;> cases digit

theorem tokens_numeral {numeral : Numeral} (formed : numeral.WellFormed) {rest : List Glyph}
    (ends : Ends rest) :
    tokens (glyphs numeral.text ++ rest) = Token.ofNumeral numeral :: tokens rest := by
  have read : Token.scanNumber numeral.negative (glyphs numeral.unsignedText ++ rest) =
      .ok (Token.ofNumeral numeral, rest) := by
    rw [Token.scanNumber, scanNumeral_append formed ends]
  unfold Numeral.text
  split
  · rename_i negative
    rw [negative] at read
    exact tokens_of_scan (by decide) (show Token.scan '-' _ = _ from read)
  · rename_i positive
    rw [Bool.not_eq_true] at positive
    rw [positive] at read
    obtain ⟨digit, digits, split⟩ := List.exists_cons_of_ne_nil formed.nonempty
    have isDigit : digit.isDigit = true := formed.whole digit (split ▸ List.mem_cons_self)
    simp only [Numeral.unsignedText, split, List.cons_append, List.map_cons] at read ⊢
    exact tokens_of_scan (isSpace_of_isDigit isDigit) ((scan_digit isDigit _).trans read)

theorem tokens_integer {value : Int} (fits : (Number.integer value).Fits) {rest : List Glyph}
    (ends : Ends rest) :
    tokens (glyphs (integerText value) ++ rest) = .number (.integer value) :: tokens rest := by
  obtain ⟨least, greatest⟩ := fits
  have formed := Numeral.wellFormed_toDigits (value < 0) value.natAbs
  have text : integerText value =
      (Numeral.mk (value < 0) (Nat.toDigits 10 value.natAbs) [] none).text := by
    simp [integerText, Numeral.text, Numeral.unsignedText]
  have token : Token.ofNumeral ⟨value < 0, Nat.toDigits 10 value.natAbs, [], none⟩ =
      .number (.integer value) := by
    by_cases negative : value < 0
    · have back : -(value.natAbs : Int) = value := by omega
      simp only [Token.ofNumeral, negative, decide_true,
        value?_negative (show 0 < value.natAbs by omega) (by omega), back]
    · have back : (value.natAbs : Int) = value := by omega
      simp only [Token.ofNumeral, negative, decide_false,
        value?_natural (show value.natAbs < Text.countLimit by omega), back]
  rw [text, tokens_numeral formed ends, token]

theorem tokens_number {number : Number} (fits : number.Fits) {rest : List Glyph}
    (ends : Ends rest) :
    tokens (glyphs (numberText number) ++ rest) = .number number.reread :: tokens rest := by
  cases number with
  | integer value => exact tokens_integer fits ends
  | double value =>
      have token : Token.ofNumeral value.numeral = .number (Number.reread (.double value)) := by
        rw [Token.ofNumeral, Number.value?_numeral]
      rw [numberText, value.text_eq, tokens_numeral value.wellFormed_numeral ends, token]

theorem tokens_literal {letter : Char} {letters : List Char} {token : Token}
    (solid : isSpace (.char letter) = false)
    (known : ∀ text, Token.scan letter text = Token.scanLiteral token letters text)
    (rest : List Glyph) :
    tokens (glyphs (letter :: letters) ++ rest) = token :: tokens rest := by
  change tokens (.char letter :: (glyphs letters ++ rest)) = _
  refine tokens_of_scan solid ?_
  rw [known, Token.scanLiteral, scanWord_append]

theorem ends_writeItems {spacing : Spacing} {depth : Nat} {items : List Json} {rest : List Glyph}
    (ends : Ends rest) : Ends (glyphs (writeItems spacing depth false items) ++ rest) := by
  cases items with
  | nil => exact ends
  | cons item others => exact ends_char (by decide) _

theorem ends_writeMembers {spacing : Spacing} {depth : Nat} {members : List (String × Json)}
    {rest : List Glyph} (ends : Ends rest) :
    Ends (glyphs (writeMembers spacing depth false members) ++ rest) := by
  cases members with
  | nil => exact ends
  | cons member others => exact ends_char (by decide) _

theorem tokens_separator (isFirst : Bool) (text : List Glyph) :
    tokens (glyphs (comma isFirst) ++ text) = separator isFirst ++ tokens text := by
  cases isFirst with
  | true => rfl
  | false => exact tokens_punctuation rfl text

variable {spacing : Spacing}

theorem tokens_bracket (blank : spacing.Blank) {opening closing : Char} {first last : Token}
    (opens : Token.punctuation? opening = some first) (closes : Token.punctuation? closing = some last)
    {isEmpty : Bool} {content : List Char} {inside : List Token}
    (none : isEmpty = true → inside = [])
    (reads : ∀ rest, Ends rest → tokens (glyphs content ++ rest) = inside ++ tokens rest)
    (depth : Nat) (rest : List Glyph) :
    tokens (glyphs (bracket spacing depth opening closing isEmpty content) ++ rest) =
      first :: inside ++ last :: tokens rest := by
  cases isEmpty with
  | true =>
      rw [none rfl]
      refine (tokens_punctuation opens _).trans ?_
      exact congrArg _ (tokens_punctuation closes rest)
  | false =>
      have ends : Ends (glyphs (spacing.lineStart depth) ++ .char closing :: rest) :=
        ends_spaces (blank.lineStart depth) (ends_char (punctuation_marks closes).2 rest)
      simp only [bracket, Bool.false_eq_true, if_false, List.cons_append, List.map_cons,
        List.map_append, List.append_assoc, List.map_nil, List.nil_append]
      rw [tokens_punctuation opens, reads _ ends, tokens_spaces (blank.lineStart depth),
        tokens_punctuation closes]

mutual

theorem tokens_write (blank : spacing.Blank) (depth : Nat) (value : Json) (fits : value.Fits)
    {rest : List Glyph} (ends : Ends rest) :
    tokens (glyphs (write spacing depth value) ++ rest) = written value.reread ++ tokens rest := by
  match value with
  | .null => exact tokens_literal (by decide) (fun _ => rfl) rest
  | .boolean true => exact tokens_literal (by decide) (fun _ => rfl) rest
  | .boolean false => exact tokens_literal (by decide) (fun _ => rfl) rest
  | .number value => exact tokens_number fits ends
  | .string text => exact tokens_string text rest
  | .array items =>
      rw [write, reread, written, List.append_assoc]
      refine tokens_bracket blank rfl rfl ?_
        (fun others => tokens_writeItems blank (depth + 1) true items fits) depth rest
      intro empty
      rw [List.isEmpty_iff.mp empty]
      rfl
  | .object members =>
      rw [write, reread, written, List.append_assoc]
      refine tokens_bracket blank rfl rfl ?_
        (fun others => tokens_writeMembers blank (depth + 1) true members fits) depth rest
      intro empty
      rw [List.isEmpty_iff.mp empty]
      rfl

theorem tokens_writeItems (blank : spacing.Blank) (depth : Nat) (isFirst : Bool)
    (items : List Json) (fits : EveryNumberItems Number.Fits items) {rest : List Glyph}
    (ends : Ends rest) :
    tokens (glyphs (writeItems spacing depth isFirst items) ++ rest) =
      writtenItems isFirst (rereadItems items) ++ tokens rest := by
  match items with
  | [] => rfl
  | item :: items =>
      simp only [writeItems, rereadItems, writtenItems, List.map_append, List.append_assoc]
      rw [tokens_separator, tokens_spaces (blank.lineStart depth),
        tokens_write blank depth item fits.1 (ends_writeItems ends),
        tokens_writeItems blank depth false items fits.2 ends]

theorem tokens_writeMembers (blank : spacing.Blank) (depth : Nat) (isFirst : Bool)
    (members : List (String × Json)) (fits : EveryNumberMembers Number.Fits members)
    {rest : List Glyph} (ends : Ends rest) :
    tokens (glyphs (writeMembers spacing depth isFirst members) ++ rest) =
      writtenMembers isFirst (rereadMembers members) ++ tokens rest := by
  match members with
  | [] => rfl
  | (name, value) :: members =>
      simp only [writeMembers, rereadMembers, writtenMembers, List.map_append, List.map_cons,
        List.append_assoc, List.cons_append]
      rw [tokens_separator, tokens_spaces (blank.lineStart depth), tokens_string,
        tokens_punctuation (show Token.punctuation? ':' = some .colon from rfl),
        tokens_spaces blank.afterColon,
        tokens_write blank depth value fits.1 (ends_writeMembers ends),
        tokens_writeMembers blank depth false members fits.2 ends]

end

end Waymark.Json
