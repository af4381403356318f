import Waymark.Calendar.Instant
/-!
# Days of the calendar

The date of a day has the number of that day.
-/

namespace Waymark

namespace Date

theorem lastNotAfter_le {day : Int} (before : Int → Int) (counts : List Int) {first : Int}
    (start : before first ≤ day) : before (lastNotAfter day before counts first) ≤ day := by
  induction counts generalizing first with
  | nil => exact start
  | cons count counts ih =>
      simp only [lastNotAfter, List.foldl_cons]
      split
      · exact ih ‹_›
      · exact ih start

theorem daysBeforeYear_eq (year : Int) :
    daysBeforeYear year =
      365 * (year - 1) + (year - 1) / 4 - (year - 1) / 100 + (year - 1) / 400 := by
  simp [daysBeforeYear, Int.fdiv_eq_ediv_of_nonneg]

theorem daysBeforeYear_estimate_le (day : Int) :
    daysBeforeYear ((day * 400).fdiv 146097 + 1 - 1) ≤ day := by
  rw [daysBeforeYear_eq, Int.fdiv_eq_ediv_of_nonneg _ (by decide)]
  omega

theorem daysBeforeMonth_one (year : Int) : daysBeforeMonth year 1 = 0 :=
  rfl

theorem number_ofNumber (number : Int) : (ofNumber number).number = number := by
  have yearStart := lastNotAfter_le daysBeforeYear
    [((number + epoch) * 400).fdiv 146097 + 1, ((number + epoch) * 400).fdiv 146097 + 1 + 1]
    (daysBeforeYear_estimate_le (number + epoch))
  generalize chosen : lastNotAfter (number + epoch) daysBeforeYear
    [((number + epoch) * 400).fdiv 146097 + 1, ((number + epoch) * 400).fdiv 146097 + 1 + 1]
    (((number + epoch) * 400).fdiv 146097 + 1 - 1) = year at yearStart
  have first : (daysBeforeMonth year (Int.toNat 1) : Int) ≤ number + epoch - daysBeforeYear year := by
    have : daysBeforeMonth year (Int.toNat 1) = 0 := daysBeforeMonth_one year
    omega
  have monthStart := lastNotAfter_le (fun month => (daysBeforeMonth year month.toNat : Int))
    ((List.range 12).map fun (month : Nat) => (month : Int) + 1) first
  simp only [Date.number, ofNumber, chosen]
  omega

end Date

namespace Instant

theorem dayNumber_eq (instant : Instant) : instant.dayNumber = instant.seconds / 86400 := by
  simp [dayNumber, Int.fdiv_eq_ediv_of_nonneg]

theorem secondOfDay_eq (instant : Instant) :
    instant.secondOfDay = (instant.seconds % 86400).toNat := by
  simp only [secondOfDay, dayNumber_eq]
  omega

theorem number_date (instant : Instant) : instant.date.number = instant.seconds / 86400 := by
  rw [date, Date.number_ofNumber, dayNumber_eq]

end Instant
end Waymark
