import Waymark.Proofs.Calendar.Date
import Waymark.Proofs.Text.Scan
/-!
# Instants and their text

The text of an instant on the calendar reads back as that instant, and whatever text is read gives
an instant of this kind. A leap second is the last one of a minute.
-/

namespace Waymark

open Text

namespace Text.Scan

theorem run_year_of_digit {c : Char} (digit : c.isDigit = true) (rest : List Char) :
    year.run (c :: rest) =
      ((Scan.digits (some 4)).run (c :: rest)).map fun found =>
        ((digitsValue found.1 : Int), found.2) := by
  have solid : ∀ d ∈ (c :: rest).head?, isBlank d = false := by
    rintro d ⟨⟩
    exact not_isBlank_of_isDigit digit
  have notMinus : c ≠ '-' := by rintro rfl; cases digit
  have notPlus : c ≠ '+' := by rintro rfl; cases digit
  simp only [year, StateT.run_bind, run_blanks solid, Option.bind_eq_bind, Option.bind_some,
    StateT.run_get, Option.pure_def, List.head?_cons]
  split
  · rename_i same
    exact absurd (Option.some.inj same) notMinus
  · rename_i same
    exact absurd (Option.some.inj same) notPlus
  · simp only [StateT.run_bind, StateT.run_pure, Option.bind_eq_bind, Option.pure_def]
    cases (Scan.digits (some 4)).run (c :: rest) <;> rfl

theorem run_year_yearText (year : Int) {rest : List Char} (ends : ∀ c ∈ rest.head?, c.isDigit = false) :
    Scan.year.run (Date.yearText year ++ rest) = some (year, rest) := by
  unfold Date.yearText
  split
  · rename_i plain
    simp only [Bool.and_eq_true, decide_eq_true_eq] at plain
    obtain ⟨digit, digits, written⟩ := List.exists_cons_of_ne_nil (padded_ne_nil 4 year.toNat)
    have isDigit : digit.isDigit = true := by
      have member : digit ∈ padded 4 year.toNat := written ▸ List.mem_cons_self
      exact isDigit_of_mem_padded member
    have taken := run_digits_padded 4 year.toNat (by decide) (by omega) rest
    rw [written, List.cons_append] at taken ⊢
    rw [run_year_of_digit isDigit, taken]
    simp only [← written, digitsValue_padded, Option.map_some]
    have : (year.toNat : Int) = year := by omega
    rw [this]
  · rename_i far
    have all := run_digits_all (padded_ne_nil 4 year.natAbs) (fun c => isDigit_of_mem_padded) ends
    by_cases negative : year < 0
    · have value : -(year.natAbs : Int) = year := by omega
      simp only [negative, if_true, List.cons_append]
      have solid : ∀ c ∈ ('-' :: (padded 4 year.natAbs ++ rest)).head?, isBlank c = false := by
        rintro c ⟨⟩
        decide
      have taken : Scan.year.run ('-' :: (padded 4 year.natAbs ++ rest)) =
          some (-(digitsValue (padded 4 year.natAbs) : Int), rest) := by
        simp [Scan.year, run_blanks solid, all]
      rw [taken, digitsValue_padded, value]
    · have value : (year.natAbs : Int) = year := by omega
      simp only [negative, if_false, List.cons_append]
      have solid : ∀ c ∈ ('+' :: (padded 4 year.natAbs ++ rest)).head?, isBlank c = false := by
        rintro c ⟨⟩
        decide
      have taken : Scan.year.run ('+' :: (padded 4 year.natAbs ++ rest)) =
          some ((digitsValue (padded 4 year.natAbs) : Int), rest) := by
        simp [Scan.year, run_blanks solid, all]
      rw [taken, digitsValue_padded, value]

end Text.Scan

theorem Date.monthLength_le (year : Int) (month : Nat) : Date.monthLength year month ≤ 31 := by
  unfold Date.monthLength
  repeat' split
  all_goals decide

theorem Instant.run_scanDate {date : Date} (valid : date.Valid) (rest : List Char) :
    Instant.scanDate.run (date.dashed ++ rest) = some (date, rest) := by
  obtain ⟨least, greatest, -, month, -, day⟩ := id valid
  have short := Date.monthLength_le date.year date.month
  simp only [Date.firstYear, Date.lastYear] at least greatest
  have dash : ∀ c ∈ ('-' :: (padded 2 date.month ++ '-' :: (padded 2 date.day ++ rest))).head?,
      c.isDigit = false := by
    rintro c ⟨⟩
    decide
  have noBlank (after : List Char) : ∀ c ∈ ('-' :: after).head?, isBlank c = false := by
    rintro c ⟨⟩
    decide
  have known : Date.of? date.year date.month date.day = some date := if_pos valid
  have takesYear := Scan.run_year_yearText date.year dash
  have takesMonth := Scan.run_number 2 date.month (by decide) (by omega)
  have takesDay := Scan.run_number 2 date.day (by decide) (by omega)
  simp only [Instant.scanDate, Date.dashed, List.append_assoc, List.cons_append, StateT.run_bind,
    takesYear, takesMonth, takesDay, Scan.run_blanks (noBlank _), Scan.run_literal,
    Option.bind_eq_bind, Option.bind_some, known]
  rfl

namespace Instant

/-- An instant on the calendar; only the last second of a minute can be a leap second. -/
def Valid (instant : Instant) : Prop :=
  instant.inCalendar = true ∧
    (instant.nanos < 1000000000 ∨ instant.nanos < 2000000000 ∧ instant.seconds % 60 = 59)

instance (instant : Instant) : Decidable instant.Valid :=
  inferInstanceAs (Decidable (_ ∧ _))

theorem run_scanFraction_point {width value : Nat} (positive : 0 < width) (short : width ≤ 9)
    (small : value < 10 ^ width) {rest : List Char}
    (ends : ∀ c ∈ rest.head?, c.isDigit = false) :
    scanFraction.run ('.' :: (padded width value ++ rest)) =
      some (value * 10 ^ (9 - width), rest) := by
  have length := length_padded positive small
  have taken := Scan.run_digits_ended 9 (padded_ne_nil width value)
    (fun c => isDigit_of_mem_padded) (by omega) ends
  simp [scanFraction, taken, Scan.run_dropAll ends, digitsValue_padded, length]

theorem run_scanFraction {nanos : Nat} (small : nanos < 1000000000) {rest : List Char}
    (ends : ∀ c ∈ rest.head?, c.isDigit = false) (noPoint : rest.head? ≠ some '.') :
    scanFraction.run (fractionText nanos ++ rest) = some (nanos, rest) := by
  unfold fractionText
  split
  · rename_i none
    simp [scanFraction, noPoint, none]
  split
  · rename_i thousands
    rw [List.cons_append, run_scanFraction_point (by decide) (by decide) (by omega) ends]
    have : nanos / 1000000 * 10 ^ (9 - 3) = nanos := by omega
    rw [this]
  split
  · rename_i millions
    rw [List.cons_append, run_scanFraction_point (by decide) (by decide) (by omega) ends]
    have : nanos / 1000 * 10 ^ (9 - 6) = nanos := by omega
    rw [this]
  · rw [List.cons_append, run_scanFraction_point (by decide) (by decide) small ends]
    simp

theorem run_scanOffset : scanOffset.run ['Z'] = some (0, []) :=
  rfl

theorem ofDate_clock {instant : Instant} (valid : instant.Valid) :
    ofDate instant.date (instant.secondOfDay / 3600) (instant.secondOfDay / 60 % 60)
      instant.secondAndNanos.1 instant.secondAndNanos.2 = instant := by
  have second := secondOfDay_eq instant
  have number := number_date instant
  obtain ⟨-, nanos⟩ := valid
  obtain ⟨seconds, nano⟩ := instant
  simp only at second number nanos
  unfold secondAndNanos ofDate
  simp only [number]
  by_cases plain : nano < 1000000000
  · have noLeap : Instant.secondOfDay ⟨seconds, nano⟩ % 60 ≠ 60 := by omega
    simp only [plain, if_true, noLeap, if_false, Instant.mk.injEq, and_true]
    omega
  · have leap : Instant.secondOfDay ⟨seconds, nano⟩ % 60 + 1 = 60 := by omega
    simp only [plain, if_false, leap, if_true, Instant.mk.injEq]
    omega

theorem secondAndNanos_bounds {instant : Instant} (valid : instant.Valid) :
    instant.secondAndNanos.1 ≤ 60 ∧ instant.secondAndNanos.2 < 1000000000 := by
  obtain ⟨-, nanos⟩ := valid
  unfold secondAndNanos
  split
  · exact ⟨by simp only; omega, ‹_›⟩
  · exact ⟨by simp only; omega, by simp only; omega⟩

theorem ofText?_text {instant : Instant} (valid : instant.Valid) :
    ofText? instant.text = some instant := by
  have onCalendar : instant.date.Valid := of_decide_eq_true valid.1
  have second := secondOfDay_eq instant
  obtain ⟨shown, fraction⟩ := secondAndNanos_bounds valid
  have noBlank (c : Char) (solid : isBlank c = false) (rest : List Char) :
      ∀ d ∈ (c :: rest).head?, isBlank d = false := by
    rintro d ⟨⟩
    exact solid
  have takesHour := Scan.run_number 2 (instant.secondOfDay / 3600) (by decide) (by omega)
  have takesMinute := Scan.run_number 2 (instant.secondOfDay / 60 % 60) (by decide) (by omega)
  have takesSecond := Scan.run_number 2 instant.secondAndNanos.1 (by decide) (by omega)
  have takesFraction : scanFraction.run (fractionText instant.secondAndNanos.2 ++ ['Z']) =
      some (instant.secondAndNanos.2, ['Z']) :=
    run_scanFraction fraction (by simp) (by simp)
  have takesMark (rest : List Char) :
      (Scan.oneOf fun c => c = 't' || c = 'T' || c = ' ').run ('T' :: rest) = some ('T', rest) :=
    Scan.run_oneOf (by decide) rest
  have inTime : (23 < instant.secondOfDay / 3600 || 59 < instant.secondOfDay / 60 % 60 ||
      60 < instant.secondAndNanos.1 || 86400 ≤ (0 : Int).natAbs) = false := by
    simp only [Bool.or_eq_false_iff, decide_eq_false_iff_not]
    omega
  unfold ofText? text clockText
  simp only [String.toList_ofList, scan, List.append_assoc, List.cons_append, StateT.run_bind,
    run_scanDate onCalendar, Scan.run_discard, takesMark, takesHour, takesMinute, takesSecond,
    Scan.run_blanks (noBlank ':' (by decide) _), Scan.run_literal, takesFraction,
    Scan.run_blanks (noBlank 'Z' (by decide) _), run_scanOffset, Option.bind_eq_bind,
    Option.bind_some, Option.map_some, inTime, Bool.false_eq_true, if_false]
  have back : (⟨(ofDate instant.date (instant.secondOfDay / 3600) (instant.secondOfDay / 60 % 60)
      instant.secondAndNanos.1 instant.secondAndNanos.2).seconds - 0,
      (ofDate instant.date (instant.secondOfDay / 3600) (instant.secondOfDay / 60 % 60)
      instant.secondAndNanos.1 instant.secondAndNanos.2).nanos⟩ : Instant) = instant := by
    rw [ofDate_clock valid, Int.sub_zero]
  rw [back, if_pos valid.1]
  rfl

theorem of_run_scanFraction {text rest : List Char} {nanos : Nat}
    (ran : scanFraction.run text = some (nanos, rest)) : nanos < 1000000000 := by
  unfold scanFraction at ran
  obtain ⟨here, there, -, ran⟩ := Scan.of_run_bind ran
  split at ran
  · obtain ⟨-, behind, -, ran⟩ := Scan.of_run_bind ran
    obtain ⟨digits, after, taken, ran⟩ := Scan.of_run_bind ran
    obtain ⟨-, last, -, ran⟩ := Scan.of_run_bind ran
    cases ran
    obtain ⟨short, all⟩ := Scan.of_run_digits taken
    calc digitsValue digits * 10 ^ (9 - digits.length)
        < 10 ^ digits.length * 10 ^ (9 - digits.length) :=
          Nat.mul_lt_mul_of_pos_right (digitsValue_lt all) (Nat.pow_pos (by decide))
      _ = 1000000000 := by rw [← Nat.pow_add, Nat.add_sub_cancel' short]
  · cases ran
    decide

theorem of_run_scanOffset {text rest : List Char} {offset : Int}
    (ran : scanOffset.run text = some (offset, rest)) : offset % 60 = 0 := by
  unfold scanOffset at ran
  obtain ⟨here, there, -, ran⟩ := Scan.of_run_bind ran
  split at ran
  · obtain ⟨-, behind, -, ran⟩ := Scan.of_run_bind ran
    cases ran
    rfl
  · obtain ⟨sign, afterSign, -, ran⟩ := Scan.of_run_bind ran
    split at ran
    · cases ran
      rfl
    · obtain ⟨hours, afterHours, -, ran⟩ := Scan.of_run_bind ran
      obtain ⟨-, between, -, ran⟩ := Scan.of_run_bind ran
      obtain ⟨minutes, afterMinutes, -, ran⟩ := Scan.of_run_bind ran
      cases ran
      split <;> omega

theorem valid_of_ofText? {text : String} {instant : Instant}
    (read : ofText? text = some instant) : instant.Valid := by
  obtain ⟨⟨found, rest⟩, ran, rfl⟩ := Option.map_eq_some_iff.mp read
  unfold scan at ran
  obtain ⟨date, _, -, ran⟩ := Scan.of_run_bind ran
  obtain ⟨-, _, -, ran⟩ := Scan.of_run_bind ran
  obtain ⟨hour, _, -, ran⟩ := Scan.of_run_bind ran
  obtain ⟨-, _, -, ran⟩ := Scan.of_run_bind ran
  obtain ⟨-, _, -, ran⟩ := Scan.of_run_bind ran
  obtain ⟨minute, _, -, ran⟩ := Scan.of_run_bind ran
  obtain ⟨-, _, -, ran⟩ := Scan.of_run_bind ran
  obtain ⟨-, _, -, ran⟩ := Scan.of_run_bind ran
  obtain ⟨second, _, -, ran⟩ := Scan.of_run_bind ran
  obtain ⟨nanos, _, fraction, ran⟩ := Scan.of_run_bind ran
  obtain ⟨-, _, -, ran⟩ := Scan.of_run_bind ran
  obtain ⟨offset, _, shift, ran⟩ := Scan.of_run_bind ran
  obtain ⟨-, _, -, ran⟩ := Scan.of_run_bind ran
  obtain ⟨-, _, -, ran⟩ := Scan.of_run_bind ran
  -- Of all that is read, only the fraction and the offset say which second is the last.
  have small := of_run_scanFraction fraction
  have minutes := of_run_scanOffset shift
  split at ran
  · cases ran
  · dsimp only at ran
    split at ran
    · rename_i onCalendar
      cases ran
      refine ⟨onCalendar, ?_⟩
      simp only [ofDate]
      split
      · exact .inr ⟨by omega, by omega⟩
      · exact .inl small
    · cases ran

end Instant
end Waymark
