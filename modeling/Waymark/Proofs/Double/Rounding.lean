import Mathlib.Algebra.Group.Nat.Defs
import Waymark.Double
/-!
# Rounding to doubles

Codes are in the order of the magnitudes that they stand for, rounding keeps the order of quotients,
and a quotient that is itself a magnitude is not changed by it. So rounding never passes a double.
-/

namespace Waymark.Double

theorem div_le_roundDiv (dividend divisor : Nat) : dividend / divisor ≤ roundDiv dividend divisor := by
  unfold roundDiv
  dsimp only
  split <;> omega

theorem roundDiv_le_succ (dividend divisor : Nat) :
    roundDiv dividend divisor ≤ dividend / divisor + 1 := by
  unfold roundDiv
  dsimp only
  split <;> omega

theorem roundDiv_mul (value : Nat) {divisor : Nat} (positive : 0 < divisor) :
    roundDiv (value * divisor) divisor = value := by
  simp [roundDiv, Nat.mul_div_cancel _ positive, positive]

theorem roundDiv_mono {small large divisor : Nat} (le : small ≤ large) :
    roundDiv small divisor ≤ roundDiv large divisor := by
  rcases Nat.lt_or_eq_of_le (Nat.div_le_div_right (c := divisor) le) with less | same
  · calc roundDiv small divisor ≤ small / divisor + 1 := roundDiv_le_succ _ _
      _ ≤ large / divisor := less
      _ ≤ roundDiv large divisor := div_le_roundDiv _ _
  · -- With one whole part, the larger rest decides.
    have rests : small % divisor ≤ large % divisor := by
      have first := Nat.div_add_mod small divisor
      have second := Nat.div_add_mod large divisor
      rw [same] at first
      omega
    have down : (2 * (large % divisor) < divisor ||
        2 * (large % divisor) = divisor && large / divisor % 2 = 0) = true →
        (2 * (small % divisor) < divisor ||
          2 * (small % divisor) = divisor && large / divisor % 2 = 0) = true := by
      simp only [Bool.or_eq_true, Bool.and_eq_true, decide_eq_true_eq]
      omega
    simp only [roundDiv, same]
    split
    · split <;> omega
    · rename_i up
      exact Nat.le_of_eq (if_neg fun also => up (down also)).symm

def stepOf (dividend divisor : Nat) : Nat :=
  (dividend / divisor).log2 - 52

theorem nearestCode_eq (dividend divisor : Nat) :
    nearestCode dividend divisor = stepOf dividend divisor * binade +
      roundDiv dividend (divisor * 2 ^ stepOf dividend divisor) :=
  rfl

theorem roundDiv_step_le (dividend divisor : Nat) :
    roundDiv dividend (divisor * 2 ^ stepOf dividend divisor) ≤ 2 * binade := by
  have short : dividend / divisor < 2 ^ (53 + stepOf dividend divisor) :=
    Nat.lt_of_lt_of_le Nat.lt_log2_self (Nat.pow_le_pow_right (by decide) (by unfold stepOf; omega))
  have whole : dividend / (divisor * 2 ^ stepOf dividend divisor) < 2 * binade := by
    rw [← Nat.div_div_eq_div_mul]
    refine Nat.div_lt_of_lt_mul ?_
    rwa [Nat.pow_add, Nat.mul_comm] at short
  exact Nat.le_trans (roundDiv_le_succ _ _) whole

theorem le_roundDiv_step {dividend divisor : Nat} (beyond : 0 < stepOf dividend divisor) :
    binade ≤ roundDiv dividend (divisor * 2 ^ stepOf dividend divisor) := by
  have size : (dividend / divisor).log2 = 52 + stepOf dividend divisor := by
    unfold stepOf at *
    omega
  have some : dividend / divisor ≠ 0 := by
    intro none
    rw [none, Nat.log2_zero] at size
    omega
  have long := Nat.log2_self_le some
  rw [size, Nat.pow_add] at long
  have whole : binade ≤ dividend / (divisor * 2 ^ stepOf dividend divisor) := by
    rw [← Nat.div_div_eq_div_mul]
    exact (Nat.le_div_iff_mul_le (Nat.two_pow_pos _)).mpr long
  exact Nat.le_trans whole (div_le_roundDiv _ _)

theorem stepOf_mono {small large : Nat} (divisor : Nat) (le : small ≤ large) :
    stepOf small divisor ≤ stepOf large divisor := by
  have logs : (small / divisor).log2 ≤ (large / divisor).log2 := by
    by_cases none : small / divisor = 0
    · simp [none]
    · have quotients : small / divisor ≤ large / divisor := Nat.div_le_div_right le
      have some : large / divisor ≠ 0 := fun zero => none (Nat.le_zero.mp (zero ▸ quotients))
      exact (Nat.le_log2 some).mpr (Nat.le_trans (Nat.log2_self_le none) quotients)
  exact Nat.sub_le_sub_right logs 52

theorem nearestCode_mono {small large : Nat} (divisor : Nat) (le : small ≤ large) :
    nearestCode small divisor ≤ nearestCode large divisor := by
  rw [nearestCode_eq, nearestCode_eq]
  rcases Nat.lt_or_eq_of_le (stepOf_mono divisor le) with less | same
  · have low := roundDiv_step_le small divisor
    have high := le_roundDiv_step (Nat.zero_lt_of_lt less)
    have steps := Nat.mul_le_mul_right binade less
    rw [Nat.succ_mul] at steps
    omega
  · rw [same]
    exact Nat.add_le_add_left (roundDiv_mono le) _

theorem stepOf_unitsOf (code : Nat) {divisor : Nat} (positive : 0 < divisor) :
    stepOf (unitsOf code * divisor) divisor = code / binade - 1 := by
  have quotient : unitsOf code * divisor / divisor =
      (code - (code / binade - 1) * binade) * 2 ^ (code / binade - 1) :=
    Nat.mul_div_cancel _ positive
  rw [stepOf, quotient]
  generalize step : code / binade - 1 = s
  have parts := Nat.div_add_mod code binade
  have rest := Nat.mod_lt code (show 0 < binade by decide)
  rcases Nat.eq_zero_or_pos s with low | high
  · have small : code - s * binade < 2 ^ 53 := by simp only [binade] at *; omega
    have short : (code - s * binade).log2 < 53 := by
      by_cases none : code - s * binade = 0
      · rw [none, Nat.log2_zero]; decide
      · exact (Nat.log2_lt none).mpr small
    rw [low] at short ⊢
    simp only [Nat.pow_zero, Nat.mul_one]
    omega
  · have least : 2 ^ 52 ≤ code - s * binade := by simp only [binade] at *; omega
    have most : code - s * binade < 2 ^ 53 := by simp only [binade] at *; omega
    have some : (code - s * binade) * 2 ^ s ≠ 0 :=
      Nat.mul_ne_zero (by omega) (Nat.ne_of_gt (Nat.two_pow_pos _))
    have size : ((code - s * binade) * 2 ^ s).log2 = 52 + s := by
      refine (Nat.log2_eq_iff some).mpr ⟨?_, ?_⟩
      · rw [Nat.pow_add]
        exact Nat.mul_le_mul_right _ least
      · rw [show 52 + s + 1 = 53 + s by omega, Nat.pow_add]
        exact Nat.mul_lt_mul_of_pos_right most (Nat.two_pow_pos _)
    omega

theorem nearestCode_unitsOf (code : Nat) {divisor : Nat} (positive : 0 < divisor) :
    nearestCode (unitsOf code * divisor) divisor = code := by
  have regroup : unitsOf code * divisor =
      (code - (code / binade - 1) * binade) * (divisor * 2 ^ (code / binade - 1)) := by
    change (code - (code / binade - 1) * binade) * 2 ^ (code / binade - 1) * divisor = _
    rw [Nat.mul_assoc, Nat.mul_comm divisor]
  have inside : (code / binade - 1) * binade ≤ code :=
    Nat.le_trans (Nat.mul_le_mul_right _ (Nat.sub_le _ _)) (Nat.div_mul_le_self _ _)
  rw [nearestCode_eq, stepOf_unitsOf code positive, regroup,
    roundDiv_mul _ (Nat.mul_pos positive (Nat.two_pow_pos _)), Nat.add_sub_cancel' inside]

theorem unitsOf_lt {small large : Nat} (less : small < large) : unitsOf small < unitsOf large := by
  refine Nat.lt_of_not_le fun notLess => ?_
  have back := nearestCode_mono 1 notLess
  rw [← Nat.mul_one (unitsOf small), ← Nat.mul_one (unitsOf large),
    nearestCode_unitsOf _ Nat.one_pos, nearestCode_unitsOf _ Nat.one_pos] at back
  omega

theorem unitsOf_le {small large : Nat} (le : small ≤ large) : unitsOf small ≤ unitsOf large := by
  rcases Nat.lt_or_eq_of_le le with less | same
  · exact Nat.le_of_lt (unitsOf_lt less)
  · exact same ▸ Nat.le_refl _

end Waymark.Double
