import Waymark.Proofs.Text.Digits
/-!
# Scanning what was written

Each scan takes back what a writer put at the beginning of a text, as long as what follows cannot
be taken for a part of it.
-/

namespace Waymark.Text

theorem not_isBlank_of_isDigit {c : Char} (digit : c.isDigit = true) : isBlank c = false := by
  have := isDigit_le digit
  simp only [isBlank, Bool.or_eq_false_iff, Bool.and_eq_false_iff, decide_eq_false_iff_not]
  omega

theorem dropBlanks_eq {text : List Char} (solid : ∀ c ∈ text.head?, isBlank c = false) :
    dropBlanks text = text := by
  cases text with
  | nil => rfl
  | cons c rest => simp [dropBlanks, solid c rfl]

structure Solid (text : List Char) : Prop where
  nonempty : text ≠ []
  first : ∀ c ∈ text.head?, isBlank c = false
  last : ∀ c ∈ text.getLast?, isBlank c = false

theorem solid_of_all {text : List Char} (nonempty : text ≠ [])
    (all : ∀ c ∈ text, isBlank c = false) : Solid text where
  nonempty := nonempty
  first c here := all c (List.mem_of_mem_head? here)
  last c here := all c (List.mem_of_mem_getLast? here)

theorem solid_of_ends {opening closing : Char} (opens : isBlank opening = false)
    (closes : isBlank closing = false) (content : List Char) :
    Solid (opening :: content ++ [closing]) where
  nonempty := List.cons_ne_nil _ _
  first c here := by
    cases here
    exact opens
  last c here := by
    rw [List.getLast?_concat] at here
    cases here
    exact closes

theorem Solid.reverse {text : List Char} (solid : Solid text) : Solid text.reverse where
  nonempty := by simpa using solid.nonempty
  first := by simpa using solid.last
  last := by simpa using solid.first

theorem dropBlanks_append {before text after : List Char} (blank : ∀ c ∈ before, isBlank c = true)
    (solid : Solid text) : dropBlanks (before ++ (text ++ after)) = text ++ after := by
  rw [dropBlanks, List.dropWhile_append_of_pos blank]
  refine dropBlanks_eq fun c here => ?_
  obtain ⟨first, rest, rfl⟩ := List.exists_cons_of_ne_nil solid.nonempty
  exact solid.first c here

theorem trim_surrounded {before text after : List Char} (blankBefore : ∀ c ∈ before, isBlank c = true)
    (blankAfter : ∀ c ∈ after, isBlank c = true) (solid : Solid text) :
    trim (String.ofList (before ++ text ++ after)) = String.ofList text := by
  have behind : dropBlanks (after.reverse ++ (text.reverse ++ [])) = text.reverse ++ [] :=
    dropBlanks_append (by simpa using blankAfter) solid.reverse
  rw [trim, String.toList_ofList, List.append_assoc, dropBlanks_append blankBefore solid,
    List.reverse_append]
  rw [List.append_nil] at behind
  rw [behind, List.reverse_reverse]

theorem takeWhile_isDigit_append {digits rest : List Char} (all : ∀ c ∈ digits, c.isDigit = true)
    (ends : ∀ c ∈ rest.head?, c.isDigit = false) :
    (digits ++ rest).takeWhile Char.isDigit = digits := by
  rw [List.takeWhile_append_of_pos all]
  cases rest with
  | nil => simp
  | cons c rest => simp [ends c rfl]

namespace Scan

variable {α β : Type}

theorem of_run_bind {scan : Scan α} {next : α → Scan β} {text : List Char} {last : β × List Char}
    (ran : (scan >>= next).run text = some last) :
    ∃ found rest, scan.run text = some (found, rest) ∧ (next found).run rest = some last := by
  rw [StateT.run_bind] at ran
  obtain ⟨⟨found, rest⟩, first, second⟩ := Option.bind_eq_some_iff.mp ran
  exact ⟨found, rest, first, second⟩

@[simp] theorem run_discard (scan : Scan α) (text : List Char) :
    (discard scan).run text = (scan.run text).map fun found => (⟨⟩, found.2) := by
  simp only [discard, LawfulFunctor.map_const, Function.comp_apply, StateT.run_map]
  rfl

@[simp] theorem run_char? (c : Char) (rest : List Char) :
    char?.run (c :: rest) = some (some c, rest) := by
  simp [char?]

theorem run_oneOf {isMember : Char → Bool} {c : Char} (member : isMember c = true)
    (rest : List Char) : (oneOf isMember).run (c :: rest) = some (c, rest) := by
  simp [oneOf, member]

@[simp] theorem run_literal (c : Char) (rest : List Char) :
    (literal c).run (c :: rest) = some ((), rest) := by
  rw [literal, run_discard, run_oneOf (by simp)]
  rfl

theorem run_blanks {text : List Char} (solid : ∀ c ∈ text.head?, isBlank c = false) :
    blanks.run text = some ((), text) := by
  simp [blanks, dropBlanks_eq solid]

theorem run_takeAll (isMember : Char → Bool) (width : Nat) (text : List Char) :
    (takeAll isMember (some width)).run text =
      some ((text.takeWhile isMember).take width,
        text.drop ((text.takeWhile isMember).take width).length) :=
  rfl

theorem run_takeAll_unlimited (isMember : Char → Bool) (text : List Char) :
    (takeAll isMember none).run text =
      some (text.takeWhile isMember, text.drop (text.takeWhile isMember).length) :=
  rfl

theorem run_digits_padded (width value : Nat) (positive : 0 < width) (small : value < 10 ^ width)
    (rest : List Char) :
    (Scan.digits (some width)).run (padded width value ++ rest) =
      some (padded width value, rest) := by
  have length := length_padded positive small
  have taken : ((padded width value ++ rest).takeWhile Char.isDigit).take width =
      padded width value := by
    rw [List.takeWhile_append_of_pos fun c => isDigit_of_mem_padded,
      List.take_append_of_le_length (by omega), List.take_of_length_le (by omega)]
  simp only [Scan.digits, StateT.run_bind, run_takeAll, taken]
  simp [padded_ne_nil]

theorem run_digits_all {digits rest : List Char} (nonempty : digits ≠ [])
    (all : ∀ c ∈ digits, c.isDigit = true) (ends : ∀ c ∈ rest.head?, c.isDigit = false) :
    (Scan.digits none).run (digits ++ rest) = some (digits, rest) := by
  have taken := takeWhile_isDigit_append all ends
  simp only [Scan.digits, StateT.run_bind, run_takeAll_unlimited, taken]
  simp [nonempty]

theorem run_digits_ended (limit : Nat) {digits rest : List Char} (nonempty : digits ≠ [])
    (all : ∀ c ∈ digits, c.isDigit = true) (short : digits.length ≤ limit)
    (ends : ∀ c ∈ rest.head?, c.isDigit = false) :
    (Scan.digits (some limit)).run (digits ++ rest) = some (digits, rest) := by
  have taken : ((digits ++ rest).takeWhile Char.isDigit).take limit = digits := by
    rw [takeWhile_isDigit_append all ends, List.take_of_length_le short]
  simp only [Scan.digits, StateT.run_bind, run_takeAll, taken]
  simp [nonempty]

theorem of_run_digits {limit : Nat} {text digits rest : List Char}
    (ran : (Scan.digits (some limit)).run text = some (digits, rest)) :
    digits.length ≤ limit ∧ ∀ c ∈ digits, c.isDigit = true := by
  simp only [Scan.digits, StateT.run_bind, run_takeAll, Option.bind_eq_bind, Option.bind_some] at ran
  split at ran
  · cases ran
  · cases ran
    refine ⟨List.length_take_le _ _, fun c member => ?_⟩
    exact List.all_eq_true.mp (List.all_takeWhile ..) c (List.mem_of_mem_take member)

theorem run_dropAll {isMember : Char → Bool} {text : List Char}
    (ends : ∀ c ∈ text.head?, isMember c = false) :
    (dropAll isMember).run text = some ((), text) := by
  cases text with
  | nil => rfl
  | cons c rest => simp [dropAll, ends c rfl]

theorem solid_padded (width value : Nat) (rest : List Char) :
    ∀ c ∈ (padded width value ++ rest).head?, isBlank c = false := by
  intro c first
  cases written : padded width value with
  | nil => exact absurd written (padded_ne_nil width value)
  | cons digit digits =>
      rw [written, List.cons_append, List.head?_cons, Option.mem_some_iff] at first
      have member : digit ∈ padded width value := written ▸ List.mem_cons_self
      exact first ▸ not_isBlank_of_isDigit (isDigit_of_mem_padded member)

theorem run_number (width value : Nat) (positive : 0 < width) (small : value < 10 ^ width)
    (rest : List Char) :
    (number width).run (padded width value ++ rest) = some (value, rest) := by
  simp [number, run_blanks (solid_padded width value rest), run_digits_padded width value positive small,
    digitsValue_padded]

end Scan
end Waymark.Text
