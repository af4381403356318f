import Mathlib.Algebra.Group.Nat.Defs
import Waymark.Calendar.Written
/-!
# Written numbers

A row of digits has the value that it was written for, also behind zeros that fill it up.
-/

namespace Waymark.Text

theorem digitValue_digitChar {digit : Nat} (small : digit < 10) :
    digitValue digit.digitChar = digit := by
  have all : ∀ d < 10, digitValue (Nat.digitChar d) = d := by decide
  exact all digit small

theorem digitsValue_append_singleton (digits : List Char) (c : Char) :
    digitsValue (digits ++ [c]) = digitsValue digits * 10 + digitValue c := by
  simp [digitsValue]

theorem isDigit_le {c : Char} (digit : c.isDigit = true) : 48 ≤ c.toNat ∧ c.toNat ≤ 57 := by
  simp only [Char.isDigit, Bool.and_eq_true, decide_eq_true_eq, UInt32.le_iff_toNat_le] at digit
  exact digit

theorem digitValue_le {c : Char} (digit : c.isDigit = true) : digitValue c ≤ 9 := by
  have := isDigit_le digit
  simp only [digitValue, show '0'.toNat = 48 from rfl]
  omega

theorem digitsValue_lt {digits : List Char} (all : ∀ c ∈ digits, c.isDigit = true) :
    digitsValue digits < 10 ^ digits.length := by
  suffices ∀ start, digits.foldl (fun value c => value * 10 + digitValue c) start <
      (start + 1) * 10 ^ digits.length by simpa [digitsValue] using this 0
  induction digits with
  | nil => simp
  | cons c rest ih =>
      intro start
      obtain ⟨digit, others⟩ := List.forall_mem_cons.mp all
      have small := digitValue_le digit
      calc (c :: rest).foldl (fun value c => value * 10 + digitValue c) start
          < (start * 10 + digitValue c + 1) * 10 ^ rest.length := ih others _
        _ ≤ ((start + 1) * 10) * 10 ^ rest.length := Nat.mul_le_mul_right _ (by omega)
        _ = (start + 1) * 10 ^ (c :: rest).length := by
            rw [List.length_cons, Nat.pow_succ, Nat.mul_assoc, Nat.mul_comm 10]

theorem digitsValue_toDigits (value : Nat) : digitsValue (Nat.toDigits 10 value) = value := by
  induction value using Nat.strongRecOn with
  | ind value ih =>
      rw [Nat.toDigits_eq_if (by decide)]
      split
      · rename_i small
        simpa [digitsValue] using digitValue_digitChar small
      · rw [digitsValue_append_singleton, ih (value / 10) (by omega),
          digitValue_digitChar (Nat.mod_lt _ (by decide))]
        omega

theorem digitsValue_replicate_append (count : Nat) (digits : List Char) :
    digitsValue (List.replicate count '0' ++ digits) = digitsValue digits := by
  induction count with
  | zero => rfl
  | succ count ih => exact ih

theorem digitsValue_append_replicate (digits : List Char) (count : Nat) :
    digitsValue (digits ++ List.replicate count '0') = digitsValue digits * 10 ^ count := by
  induction count with
  | zero => simp
  | succ count ih =>
      have zero : digitValue '0' = 0 := rfl
      rw [List.replicate_succ', ← List.append_assoc, digitsValue_append_singleton, ih, zero,
        Nat.pow_succ, Nat.add_zero, Nat.mul_assoc]

theorem isDigit_of_mem_toDigits {value : Nat} {c : Char} (member : c ∈ Nat.toDigits 10 value) :
    c.isDigit = true :=
  Nat.isDigit_of_mem_toDigits (by decide) (by decide) member

theorem digitsValue_padded (width value : Nat) : digitsValue (padded width value) = value := by
  rw [padded, digitsValue_replicate_append, digitsValue_toDigits]

theorem isDigit_of_mem_padded {width value : Nat} {c : Char} (member : c ∈ padded width value) :
    c.isDigit = true := by
  rcases List.mem_append.mp member with zero | digit
  · rw [List.eq_of_mem_replicate zero]
    decide
  · exact isDigit_of_mem_toDigits digit

theorem length_padded {width value : Nat} (positive : 0 < width) (small : value < 10 ^ width) :
    (padded width value).length = width := by
  have fits := (Nat.length_toDigits_le_iff (b := 10) (by decide) positive).mpr small
  simp only [padded, List.length_append, List.length_replicate]
  omega

theorem padded_ne_nil (width value : Nat) : padded width value ≠ [] := by
  simp [padded, Nat.toDigits_ne_nil]

end Waymark.Text
