import Mathlib.Data.List.TakeWhile
import Waymark.Setting
/-!
# Texts that are given

What can be written for a setting: nothing but blanks, a whole number with an optional sign, or a
word for yes or no.
-/

namespace Waymark.Text

def OnlyBlanks (text : String) : Prop :=
  ∀ c ∈ text.toList, isBlank c = true

theorem blank_of_blank_dropBlanks {text : List Char}
    (blank : ∀ c ∈ dropBlanks text, isBlank c = true) : ∀ c ∈ text, isBlank c = true := by
  induction text with
  | nil => exact blank
  | cons first rest ih =>
      cases solid : isBlank first with
      | true =>
          rw [dropBlanks, List.dropWhile_cons_of_pos solid] at blank
          exact List.forall_mem_cons.mpr ⟨solid, ih blank⟩
      | false =>
          rw [dropBlanks, List.dropWhile_cons_of_neg (Bool.eq_false_iff.mp solid)] at blank
          exact blank

theorem isEmpty_trim_iff {text : String} : (trim text).isEmpty = true ↔ OnlyBlanks text := by
  rw [String.isEmpty_iff, ← String.toList_eq_nil_iff, trim, String.toList_ofList,
    List.reverse_eq_nil_iff, dropBlanks, List.dropWhile_eq_nil_iff]
  constructor
  · intro blank
    exact blank_of_blank_dropBlanks fun c inside => blank c (List.mem_reverse.mpr inside)
  · intro blank c inside
    exact blank c ((List.dropWhile_suffix _).subset (List.mem_reverse.mp inside))

theorem ne_empty_of_not_onlyBlanks {text : String} (solid : ¬OnlyBlanks text) : text ≠ "" := by
  rintro rfl
  exact solid (by simp [OnlyBlanks])

def IsNumeral (digits : List Char) : Prop :=
  digits ≠ [] ∧ ∀ c ∈ digits, c.isDigit = true

theorem wholeDigits?_eq_some {digits : List Char} {value : Nat} :
    wholeDigits? digits = some value ↔ IsNumeral digits ∧ digitsValue digits = value := by
  unfold wholeDigits? IsNumeral
  cases digits <;> simp

inductive Writes : List Char → Int → Prop
  | bare {digits : List Char} (numeral : IsNumeral digits) : Writes digits (digitsValue digits)
  | plus {digits : List Char} (numeral : IsNumeral digits) :
      Writes ('+' :: digits) (digitsValue digits)
  | minus {digits : List Char} (numeral : IsNumeral digits) :
      Writes ('-' :: digits) (-(digitsValue digits : Int))

theorem signed?_of_numeral {digits : List Char} (numeral : IsNumeral digits) :
    signed? digits = some (digitsValue digits : Int) := by
  have read := wholeDigits?_eq_some.mpr ⟨numeral, rfl⟩
  unfold signed?
  split
  · exact absurd (numeral.2 '-' List.mem_cons_self) (by decide)
  · exact absurd (numeral.2 '+' List.mem_cons_self) (by decide)
  · rw [read]
    rfl

theorem signed?_eq_some {text : List Char} {value : Int} :
    signed? text = some value ↔ Writes text value := by
  constructor
  · intro read
    unfold signed? at read
    split at read <;> obtain ⟨whole, found, rfl⟩ := Option.map_eq_some_iff.mp read <;>
      obtain ⟨count, counted, same⟩ := Option.bind_eq_some_iff.mp found <;> cases same <;>
      obtain ⟨numeral, rfl⟩ := wholeDigits?_eq_some.mp counted
    · exact .minus numeral
    · exact .plus numeral
    · exact .bare numeral
  · intro writes
    cases writes with
    | bare numeral => exact signed?_of_numeral numeral
    | plus numeral | minus numeral =>
        simp only [signed?, wholeDigits?_eq_some.mpr ⟨numeral, rfl⟩]
        rfl

theorem int64?_eq_some {text : String} {value : Int} :
    int64? text = some value ↔
      Writes text.toList value ∧ -(signedLimit : Int) ≤ value ∧ value < signedLimit := by
  unfold int64?
  rw [Option.bind_eq_bind, Option.bind_eq_some_iff]
  constructor
  · rintro ⟨found, read, within⟩
    rw [Option.ite_none_right_eq_some, Bool.and_eq_true, decide_eq_true_eq,
      decide_eq_true_eq] at within
    obtain ⟨within, same⟩ := within
    cases same
    exact ⟨signed?_eq_some.mp read, within⟩
  · rintro ⟨writes, within⟩
    exact ⟨value, signed?_eq_some.mpr writes, by simp [within]⟩

def words : Bool → List String
  | true => ["true", "1", "yes", "on"]
  | false => ["false", "0", "no", "off"]

def Answers (text : String) (answer : Bool) : Prop :=
  lowerAscii text ∈ words answer

instance (text : String) (answer : Bool) : Decidable (Answers text answer) :=
  inferInstanceAs (Decidable (lowerAscii text ∈ words answer))

theorem yesNo?_eq_some {text : String} {answer : Bool} :
    yesNo? text = some answer ↔ Answers text answer := by
  have apart : ∀ word ∈ words false, word ∉ words true := by decide
  unfold yesNo? Answers
  dsimp only
  split
  · rename_i yes
    have yes : lowerAscii text ∈ words true := List.contains_iff_mem.mp yes
    cases answer with
    | true => simp [yes]
    | false => simpa using fun no => apart _ no yes
  split
  · rename_i notYes no
    have notYes : lowerAscii text ∉ words true := fun yes => notYes (List.contains_iff_mem.mpr yes)
    have no : lowerAscii text ∈ words false := List.contains_iff_mem.mp no
    cases answer <;> simp [notYes, no]
  · rename_i notYes notNo
    have notYes : lowerAscii text ∉ words true := fun yes => notYes (List.contains_iff_mem.mpr yes)
    have notNo : lowerAscii text ∉ words false := fun no => notNo (List.contains_iff_mem.mpr no)
    cases answer <;> simp [notYes, notNo]

end Waymark.Text
