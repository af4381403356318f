import Waymark.Double.Shortest
import Waymark.Proofs.Double.Rounding
/-!
# Bounds of shortest decimals

The decimal that a double is written as has no more than seventeen digits and is no larger than the
largest double.
-/

namespace Waymark.Double

def largestCode : Nat :=
  2047 * binade - 1

namespace Decimal

def raise (exponent : Int) : Nat :=
  10 ^ exponent.toNat

def lower (exponent : Int) : Nat :=
  10 ^ (-exponent).toNat

theorem raise_pos (exponent : Int) : 0 < raise exponent :=
  Nat.pow_pos (by decide)

theorem lower_pos (exponent : Int) : 0 < lower exponent :=
  Nat.pow_pos (by decide)

theorem fraction_eq (decimal : Decimal) :
    decimal.fraction = (decimal.digits * raise decimal.exponent, lower decimal.exponent) := by
  obtain ⟨digits, exponent⟩ := decimal
  cases exponent with
  | ofNat power =>
      simp [fraction, raise, lower]
  | negSucc power =>
      have none : (Int.negSucc power).toNat = 0 := rfl
      simp [fraction, raise, lower, none]

theorem raise_mul_lower {low high : Int} (le : low ≤ high) :
    raise high * lower low = 10 ^ (high - low).toNat * raise low * lower high := by
  simp only [raise, lower, ← Nat.pow_add]
  congr 1
  omega

end Decimal

open Decimal

theorem lt_pow_length (value : Nat) : value < 10 ^ (toString value).length :=
  (Nat.length_repr_le_iff Nat.length_repr_pos).mp (Nat.le_refl _)

theorem length_toString_mono {small large : Nat} (le : small ≤ large) :
    (toString small).length ≤ (toString large).length :=
  (Nat.length_repr_le_iff Nat.length_repr_pos).mpr (Nat.lt_of_le_of_lt le (lt_pow_length large))

theorem pow_length_le {value : Nat} (positive : 0 < value) :
    10 ^ ((toString value).length - 1) ≤ value := by
  refine Nat.le_of_not_lt fun less => ?_
  rcases Nat.eq_zero_or_pos ((toString value).length - 1) with none | some
  · rw [none] at less
    omega
  · have shorter := (Nat.length_repr_le_iff some).mpr less
    have longer : 0 < value.repr.length := Nat.length_repr_pos
    simp only [Nat.toString_eq_repr] at shorter
    omega

theorem lt_scientificExponent (dividend : Nat) {divisor : Nat} (positive : 0 < divisor) :
    dividend * lower (scientificExponent dividend divisor + 1) <
      raise (scientificExponent dividend divisor + 1) * divisor := by
  unfold scientificExponent
  dsimp only
  split
  · -- The lengths alone bound the quotient.
    generalize estimate : ((toString dividend).length : Int) - (toString divisor).length + 1 = bound
    have some : 0 < (toString divisor).length := Nat.length_repr_pos
    have lengths : raise bound * 10 ^ ((toString divisor).length - 1) =
        10 ^ (toString dividend).length * lower bound := by
      simp only [raise, lower, ← Nat.pow_add]
      congr 1
      omega
    calc dividend * lower bound
        < 10 ^ (toString dividend).length * lower bound :=
          Nat.mul_lt_mul_of_pos_right (lt_pow_length dividend) (lower_pos bound)
      _ = raise bound * 10 ^ ((toString divisor).length - 1) := lengths.symm
      _ ≤ raise bound * divisor := Nat.mul_le_mul_left _ (pow_length_le positive)
  · rename_i below
    simpa [fractionLe, fraction_eq] using below

theorem div_lt_of_few {dividend divisor places : Nat} (positive : 0 < divisor) (few : places < 17) :
    dividend * lower (scientificExponent dividend divisor - places) /
      (divisor * raise (scientificExponent dividend divisor - places)) < 10 ^ 17 := by
  have high := lt_scientificExponent dividend positive
  generalize scientificExponent dividend divisor = exponent at high ⊢
  have span : (exponent + 1 - (exponent - places)).toNat = places + 1 := by omega
  have scaled := raise_mul_lower (show exponent - places ≤ exponent + 1 by omega)
  rw [span] at scaled
  have below : dividend * lower (exponent - places) <
      10 ^ (places + 1) * (divisor * raise (exponent - places)) := by
    refine Nat.lt_of_mul_lt_mul_right (a := lower (exponent + 1)) ?_
    calc dividend * lower (exponent - places) * lower (exponent + 1)
        = dividend * lower (exponent + 1) * lower (exponent - places) := Nat.mul_right_comm _ _ _
      _ < raise (exponent + 1) * divisor * lower (exponent - places) :=
          Nat.mul_lt_mul_of_pos_right high (lower_pos _)
      _ = raise (exponent + 1) * lower (exponent - places) * divisor := Nat.mul_right_comm _ _ _
      _ = 10 ^ (places + 1) * raise (exponent - places) * lower (exponent + 1) * divisor := by
          rw [scaled]
      _ = 10 ^ (places + 1) * (divisor * raise (exponent - places)) * lower (exponent + 1) := by
          ac_rfl
  have powers : 10 ^ (places + 1) ≤ 10 ^ 17 := Nat.pow_le_pow_right (by decide) few
  exact Nat.lt_of_lt_of_le ((Nat.div_lt_iff_lt_mul (Nat.mul_pos positive (raise_pos _))).mpr below)
    powers

theorem unit_pos : 0 < unit := by
  have positive : ∀ power, 0 < Nat.pow 2 power := Nat.two_pow_pos
  unfold unit
  exact positive 1074

theorem digits_le_of_mem_neighbours {code : Nat} {exponent : Int} {decimal : Decimal}
    (inside : decimal ∈ neighbours code exponent) :
    decimal.digits ≤ unitsOf code * lower exponent / (unit * raise exponent) + 1 := by
  unfold neighbours at inside
  simp only [fraction_eq, Nat.one_mul] at inside
  generalize unit * raise exponent = divisor at inside ⊢
  generalize unitsOf code * lower exponent = dividend at inside ⊢
  rcases List.mem_cons.mp inside with first | second
  · rw [first]
    exact roundDiv_le_succ dividend divisor
  · rw [List.mem_singleton.mp second]
    dsimp only
    split
    · exact Nat.le_refl _
    · exact Nat.le_succ _

theorem shortest_mem {code : Nat} (readable : shortest code ≠ ⟨0, 0⟩) :
    (∃ places < 17, shortest code ∈
      neighbours code (scientificExponent (unitsOf code) unit - (places : Nat))) ∧
      readsBack code (shortest code) = true := by
  unfold shortest at readable ⊢
  dsimp only at readable ⊢
  generalize search : ((List.range 17).map fun (places : Nat) =>
    scientificExponent (unitsOf code) unit - (places : Int)).flatMap (neighbours code) = tried
    at readable ⊢
  cases found : tried.find? (readsBack code) with
  | none =>
      rw [found] at readable
      exact absurd rfl readable
  | some decimal =>
      refine ⟨?_, List.find?_some found⟩
      have inside := List.mem_of_find?_eq_some found
      rw [← search] at inside
      obtain ⟨exponent, grid, near⟩ := List.mem_flatMap.mp inside
      obtain ⟨places, few, rfl⟩ := List.mem_map.mp grid
      exact ⟨places, List.mem_range.mp few, near⟩

theorem shortest_digits_le (code : Nat) : (shortest code).digits ≤ 10 ^ 17 := by
  by_cases none : shortest code = ⟨0, 0⟩
  · rw [none]
    exact Nat.zero_le _
  · obtain ⟨⟨places, few, inside⟩, -⟩ := shortest_mem none
    exact Nat.le_trans (digits_le_of_mem_neighbours inside) (div_lt_of_few unit_pos few)

theorem of_readsBack {code : Nat} {decimal : Decimal} (back : readsBack code decimal = true) :
    (unitsOf (code - 1) + unitsOf code) * decimal.fraction.2 ≤ decimal.fraction.1 * (2 * unit) ∧
      decimal.fraction.1 * (2 * unit) ≤
        (unitsOf code + unitsOf (code + 1)) * decimal.fraction.2 := by
  unfold readsBack halfUnits at back
  dsimp only at back
  generalize 2 * unit = double at back ⊢
  split at back
  · simpa [fractionLe] using back
  · simp only [fractionLe, Bool.and_eq_true, Bool.not_eq_true', decide_eq_false_iff_not,
      Nat.not_le] at back
    exact ⟨Nat.le_of_lt back.1, Nat.le_of_lt back.2⟩

theorem length_toString {value power : Nat} (least : 10 ^ power ≤ value)
    (most : value < 10 ^ (power + 1)) : (toString value).length = power + 1 := by
  have atMost := (Nat.length_repr_le_iff (Nat.succ_pos power)).mpr most
  have below := lt_pow_length value
  have less := (Nat.pow_lt_pow_iff_right (by decide : 1 < 10)).mp (Nat.lt_of_le_of_lt least below)
  simp only [Nat.toString_eq_repr] at *
  omega

theorem length_largest : (toString (unitsOf largestCode)).length = 632 :=
  @length_toString _ 631 (by decide +kernel) (by decide +kernel)

theorem length_unit : (toString unit).length = 324 :=
  @length_toString _ 323 (by decide +kernel) (by decide +kernel)

theorem scientificExponent_largest : scientificExponent (unitsOf largestCode) unit = 308 := by
  rw [scientificExponent, length_largest, length_unit]
  decide +kernel

theorem natAbs_exponent_le {code : Nat} (finite : code < 2047 * binade) :
    (shortest code).exponent.natAbs ≤ 340 := by
  by_cases none : shortest code = ⟨0, 0⟩
  · simp [none]
  obtain ⟨⟨places, few, inside⟩, -⟩ := shortest_mem none
  have exponent : (shortest code).exponent = scientificExponent (unitsOf code) unit - places := by
    unfold neighbours at inside
    rcases List.mem_cons.mp inside with first | second
    · rw [first]
    · rw [List.mem_singleton.mp second]
  have below : code ≤ largestCode := Nat.le_pred_of_lt finite
  have shorter := length_toString_mono (unitsOf_le below)
  have some : 0 < (toString (unitsOf code)).length := Nat.length_repr_pos
  rw [length_largest] at shorter
  rw [exponent, scientificExponent, length_unit]
  generalize (toString (unitsOf code)).length = length at *
  split <;> omega

/-- The largest double is written rounded down, so it needs no room above it. -/
theorem shortest_largest_le : (shortest largestCode).fraction.1 * unit ≤
    unitsOf largestCode * (shortest largestCode).fraction.2 := by
  rw [shortest, scientificExponent_largest]
  decide +kernel

theorem shortest_le {code : Nat} (finite : code < 2047 * binade) :
    (shortest code).fraction.1 * unit ≤ unitsOf largestCode * (shortest code).fraction.2 := by
  by_cases largest : code = largestCode
  · rw [largest]
    exact shortest_largest_le
  by_cases none : shortest code = ⟨0, 0⟩
  · simp only [none, fraction_eq, Nat.zero_mul, Nat.zero_le]
  · have high := (of_readsBack (shortest_mem none).2).2
    generalize (shortest code).fraction = value at high ⊢
    have below : code + 1 ≤ largestCode := by
      unfold largestCode at *
      omega
    have first := unitsOf_le (Nat.le_of_succ_le below)
    have second := unitsOf_le below
    have sum : (unitsOf code + unitsOf (code + 1)) * value.2 ≤ 2 * (unitsOf largestCode * value.2) := by
      rw [← Nat.mul_assoc]
      exact Nat.mul_le_mul_right _ (by omega)
    have doubled : 2 * (value.1 * unit) ≤ 2 * (unitsOf largestCode * value.2) := by
      rw [Nat.mul_left_comm] at high
      exact Nat.le_trans high sum
    exact Nat.le_of_mul_le_mul_left doubled (by decide)

theorem shortest_digits_ne {code : Nat} (nonzero : code ≠ 0) (readable : shortest code ≠ ⟨0, 0⟩) :
    (shortest code).digits ≠ 0 := by
  intro zero
  have low := (of_readsBack (shortest_mem readable).2).1
  have positive : 0 < unitsOf code := by
    simpa [unitsOf] using unitsOf_lt (Nat.pos_of_ne_zero nonzero)
  simp only [fraction_eq, zero, Nat.zero_mul] at low
  have some := Nat.mul_pos (Nat.add_pos_right (unitsOf (code - 1)) positive)
    (lower_pos (shortest code).exponent)
  omega

end Waymark.Double
