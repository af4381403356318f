import Waymark.Proofs.Double.Shortest
import Waymark.Proofs.Json.Numeral
/-!
# Written doubles

The text of a double is a numeral, and the numeral has a value: its digits fit 64 bits, and it is
not too large for a double.
-/

namespace Waymark.Double

open Text Json Decimal

theorem eq_append_zeros (digits : List Char) :
    ∃ count, digits = (digits.reverse.dropWhile (· = '0')).reverse ++ zeros count := by
  refine ⟨(digits.reverse.takeWhile (· = '0')).length, ?_⟩
  have all : (digits.reverse.takeWhile (· = '0')).reverse =
      zeros (digits.reverse.takeWhile (· = '0')).length := by
    refine List.eq_replicate_iff.mpr ⟨List.length_reverse, fun c member => ?_⟩
    simpa using List.all_eq_true.mp List.all_takeWhile c (List.mem_reverse.mp member)
  rw [← all, ← List.reverse_append, List.takeWhile_append_dropWhile, List.reverse_reverse]

/-- The digits of a decimal above zero without the zeros that were dropped at their end, and the
exponent of the first digit. -/
structure Significant (decimal : Decimal) (digits : List Char) (exponent : Int) (dropped : Nat) :
    Prop where
  value : digitsValue digits * 10 ^ dropped = decimal.digits
  exponent_eq : exponent = decimal.exponent + dropped + digits.length - 1
  all : ∀ c ∈ digits, c.isDigit = true
  leading : ∃ first rest, digits = first :: rest ∧ first ≠ '0'
  short : digits.length ≤ 18
  dropped_le : dropped ≤ 18

theorem leading_of_value {digits : List Char} {dropped : Nat}
    (some : digitsValue digits * 10 ^ dropped ≠ 0)
    (single : digits.head? = Option.some '0' → digits.length = 1) :
    ∃ first rest, digits = first :: rest ∧ first ≠ '0' := by
  cases digits with
  | nil => exact absurd (Nat.zero_mul _) some
  | cons first rest =>
      refine ⟨first, rest, rfl, fun zero => some ?_⟩
      have alone : rest = [] := by simpa using single (congrArg Option.some zero)
      rw [zero, alone, show digitsValue ['0'] = 0 from rfl, Nat.zero_mul]

theorem significant_scientific {decimal : Decimal} (some : decimal.digits ≠ 0)
    (few : decimal.digits ≤ 10 ^ 17) : ∃ dropped,
      Significant decimal (scientific decimal).1 (scientific decimal).2 dropped := by
  obtain ⟨dropped, whole⟩ := eq_append_zeros (Nat.toDigits 10 decimal.digits)
  have value := digitsValue_toDigits decimal.digits
  have single := toDigits_head decimal.digits
  have isDigit := fun c => @isDigit_of_mem_toDigits decimal.digits c
  have short : (Nat.toDigits 10 decimal.digits).length ≤ 18 :=
    (Nat.length_toDigits_le_iff (by decide) (by decide)).mpr (Nat.lt_of_le_of_lt few (by decide))
  unfold scientific
  dsimp only
  generalize ((Nat.toDigits 10 decimal.digits).reverse.dropWhile (· = '0')).reverse = digits at *
  generalize Nat.toDigits 10 decimal.digits = written at *
  subst whole
  rw [zeros, digitsValue_append_replicate] at value
  simp only [zeros, List.length_append, List.length_replicate] at *
  have alone : digits.head? = Option.some '0' → digits.length = 1 := by
    intro zero
    have nonempty : digits ≠ [] := by rintro rfl; cases zero
    have := single (by rw [List.head?_append, zero]; rfl)
    have := List.length_pos_iff.mpr nonempty
    omega
  exact ⟨dropped, {
    value
    exponent_eq := by omega
    all := fun c member => isDigit c (List.mem_append_left _ member)
    leading := leading_of_value (value ▸ some) alone
    short := by omega
    dropped_le := by omega }⟩

def layoutNumeral (negative : Bool) (digits : List Char) (exponent : Int) : Numeral :=
  if exponent < -5 || 15 < exponent then
    ⟨negative, digits.take 1, digits.drop 1,
      some ⟨exponent < 0, Nat.toDigits 10 exponent.natAbs⟩⟩
  else if exponent < 0 then
    ⟨negative, ['0'], zeros (exponent.natAbs - 1) ++ digits, none⟩
  else
    let whole := exponent.natAbs + 1
    let rest := digits.drop whole
    ⟨negative, digits.take whole ++ zeros (whole - digits.length),
      if rest.isEmpty then ['0'] else rest, none⟩

def numeral (value : Double) : Numeral :=
  if value.isZero then ⟨value.negative, ['0'], ['0'], none⟩
  else
    let (digits, exponent) := scientific (shortest value.code)
    layoutNumeral value.negative digits exponent

@[simp] theorem layoutNumeral_negative (negative : Bool) (digits : List Char) (exponent : Int) :
    (layoutNumeral negative digits exponent).negative = negative := by
  unfold layoutNumeral
  repeat' split
  all_goals rfl

variable {digits : List Char} {exponent : Int}

theorem layout_eq (negative : Bool) (written : 0 ≤ exponent ∨ digits ≠ []) :
    layout digits exponent = (layoutNumeral negative digits exponent).unsignedText := by
  unfold layout layoutNumeral Numeral.unsignedText
  split
  · by_cases negativeExponent : exponent < 0 <;>
      simp [Exponent.text, exponentText, negativeExponent]
  split
  · rename_i below
    simp [written.resolve_left (Int.not_le.mpr below)]
  · by_cases short : digits.length ≤ exponent.natAbs + 1 <;> simp [short]

theorem isDigit_of_mem_zeros {count : Nat} {c : Char} (member : c ∈ zeros count) :
    c.isDigit = true := by
  rw [List.eq_of_mem_replicate member]
  rfl

theorem wellFormed_layoutNumeral (negative : Bool) (all : ∀ c ∈ digits, c.isDigit = true)
    (leading : ∃ first rest, digits = first :: rest ∧ first ≠ '0') :
    (layoutNumeral negative digits exponent).WellFormed := by
  obtain ⟨first, rest, rfl, nonzero⟩ := leading
  unfold layoutNumeral
  split
  · exact {
      nonempty := by simp
      noLeadingZero := by simp
      whole := fun c member => all c (List.mem_of_mem_take member)
      fraction := fun c member => all c (List.mem_of_mem_drop member)
      exponent := by
        rintro found ⟨⟩
        exact ⟨Nat.toDigits_ne_nil, fun c member => isDigit_of_mem_toDigits member⟩ }
  split
  · exact {
      nonempty := by simp
      noLeadingZero := by simp
      whole := by simp
      fraction := fun c member => (List.mem_append.mp member).elim isDigit_of_mem_zeros (all c)
      exponent := by simp }
  · exact {
      nonempty := by simp
      noLeadingZero := by simp [nonzero]
      whole := fun c member => (List.mem_append.mp member).elim
        (fun inside => all c (List.mem_of_mem_take inside)) isDigit_of_mem_zeros
      fraction := by
        intro c member
        dsimp only at member
        split at member
        · rw [List.mem_singleton.mp member]
          rfl
        · exact all c (List.mem_of_mem_drop member)
      exponent := by simp }

theorem exists_ofCode? (negative : Bool) {code : Nat} (finite : code < 2047 * binade) :
    ∃ double, ofCode? negative code = some double ∧ double.code = code :=
  ⟨⟨negative, code, finite⟩, dif_pos finite, rfl⟩

theorem exists_ofNat? {value : Nat} (small : value ≤ 10 ^ 18) :
    ∃ double, ofNat? value = some double ∧ double.code = nearestCode (value * unit) 1 := by
  have limit : nearestCode (10 ^ 18 * unit) 1 < 2047 * binade := by decide +kernel
  have below := nearestCode_mono 1 (Nat.mul_le_mul_right unit small)
  exact exists_ofCode? false (Nat.lt_of_le_of_lt below limit)

theorem exists_scale?_of_negative (value : Double) {places : Int} (negative : places < 0) :
    ∃ scaled, Numeral.scale? value places = some scaled := by
  cases places with
  | ofNat count => simp at negative; omega
  | negSucc count => exact ⟨_, rfl⟩

def productCode (value power : Nat) : Nat :=
  nearestCode
    (unitsOf (nearestCode (value * unit) 1) * unitsOf (nearestCode (power * unit) 1) * unit)
    (unit * unit)

theorem productCode_mono {value power greater higher : Nat} (le : value ≤ greater)
    (below : power ≤ higher) : productCode value power ≤ productCode greater higher := by
  have round : ∀ {small large : Nat}, small ≤ large →
      unitsOf (nearestCode (small * unit) 1) ≤ unitsOf (nearestCode (large * unit) 1) :=
    fun le => unitsOf_le (nearestCode_mono 1 (Nat.mul_le_mul_right unit le))
  exact nearestCode_mono _ (Nat.mul_le_mul_right _ (Nat.mul_le_mul (round le) (round below)))

theorem productCode_lt {value places : Nat} (few : value ≤ 10 ^ 17) (inside : places ≤ 308)
    (small : value * (10 ^ places * unit) ≤ unitsOf largestCode) :
    productCode value (10 ^ places) < 2047 * binade := by
  -- With up to 291 places no seventeen digits are too many, so one product bounds all. With more the
  -- largest double is the bound, and rounding the two factors does not lead beyond it.
  by_cases low : places ≤ 291
  · obtain ⟨most, atMost, limit⟩ : ∃ most, places ≤ most ∧
        productCode (10 ^ 17) (10 ^ most) < 2047 * binade := ⟨291, low, by decide +kernel⟩
    have powers : 10 ^ places ≤ 10 ^ most := Nat.pow_le_pow_right (by decide) atMost
    exact Nat.lt_of_le_of_lt (productCode_mono few powers) limit
  · have limits : ∀ further < 17, productCode
        (unitsOf largestCode / (10 ^ (292 + further) * unit)) (10 ^ (292 + further)) <
          2047 * binade := by decide +kernel
    have limit := limits (places - 292) (by omega)
    rw [show 292 + (places - 292) = places by omega] at limit
    have bound := (Nat.le_div_iff_mul_le (Nat.mul_pos (Nat.pow_pos (by decide)) unit_pos)).mpr small
    exact Nat.lt_of_le_of_lt (productCode_mono bound (Nat.le_refl _)) limit

theorem units_powerOfTen_le (places : Nat) :
    (Numeral.powerOfTen places).units ≤ unitsOf (nearestCode (10 ^ places * unit) 1) := by
  have capped : ∀ code, ((ofCode? false code).getD (zero false)).units ≤ unitsOf code := by
    intro code
    unfold ofCode?
    split
    · exact Nat.le_refl _
    · exact unitsOf_le (Nat.zero_le code)
  exact capped (nearestCode (10 ^ places * unit) 1)

theorem exists_scale? {value places : Nat} {double : Double}
    (rounded : double.code = nearestCode (value * unit) 1) (few : value ≤ 10 ^ 17)
    (inside : places ≤ 308) (small : value * (10 ^ places * unit) ≤ unitsOf largestCode) :
    ∃ scaled, Numeral.scale? double places = some scaled := by
  have below : nearestCode (double.units * (Numeral.powerOfTen places).units * unit) (unit * unit) ≤
      productCode value (10 ^ places) := by
    have product := Nat.mul_le_mul_left (unitsOf double.code) (units_powerOfTen_le places)
    rw [units, productCode, ← rounded]
    exact nearestCode_mono _ (Nat.mul_le_mul_right unit product)
  have finite := Nat.lt_of_le_of_lt below (productCode_lt few inside small)
  obtain ⟨scaled, found, -⟩ :=
    exists_ofCode? (double.negative != (Numeral.powerOfTen places).negative) finite
  refine ⟨scaled, ?_⟩
  change (if places ≤ Numeral.greatestPower then double.mul? (Numeral.powerOfTen places) else _) = _
  rw [if_pos (show places ≤ Numeral.greatestPower from inside), mul?, ofQuotient?, found]

theorem exists_value? {numeral : Numeral} (marked : numeral.fraction ≠ [] ∨ numeral.exponent ≠ none)
    (found : ∃ magnitude, numeral.magnitude? = some magnitude) :
    ∃ number, numeral.value? = some number := by
  obtain ⟨magnitude, found⟩ := found
  have notPlain : ¬(numeral.fraction.isEmpty && numeral.exponent.isNone) = true := by
    rw [Bool.and_eq_true, List.isEmpty_iff, Option.isNone_iff_eq_none]
    exact fun plain => marked.elim (· plain.1) (· plain.2)
  rw [Numeral.value?, if_neg notPlain, Numeral.double?, found]
  exact ⟨_, rfl⟩

theorem exists_magnitude?_of_point {numeral : Numeral} (plain : numeral.exponent = none)
    (point : numeral.fraction ≠ [])
    (small : digitsValue (numeral.whole ++ numeral.fraction) ≤ 10 ^ 18) :
    ∃ magnitude, numeral.magnitude? = some magnitude := by
  have negative : -(numeral.fraction.length : Int) < 0 := by
    have := List.length_pos_iff.mpr point
    omega
  obtain ⟨double, rounded, -⟩ := exists_ofNat? small
  obtain ⟨scaled, found⟩ := exists_scale?_of_negative double negative
  have inside : digitsValue (numeral.whole ++ numeral.fraction) < countLimit :=
    Nat.lt_of_le_of_lt small (by decide)
  simp only [Numeral.magnitude?, significand_eq inside, plain, rounded, Option.bind_eq_bind,
    Option.bind_some]
  exact ⟨scaled, found⟩

theorem exists_magnitude?_of_exponent (negative : Bool) {whole fraction : List Char}
    {exponent : Int} (few : digitsValue (whole ++ fraction) ≤ 10 ^ 17)
    (short : exponent.natAbs ≤ Numeral.exponentLimit)
    (small : ∀ places : Nat, exponent - fraction.length = places → places ≤ 308 ∧
      digitsValue (whole ++ fraction) * (10 ^ places * unit) ≤ unitsOf largestCode) :
    ∃ magnitude, Numeral.magnitude? ⟨negative, whole, fraction,
      some ⟨exponent < 0, Nat.toDigits 10 exponent.natAbs⟩⟩ = some magnitude := by
  have significand := @significand_eq ⟨negative, whole, fraction,
    some ⟨exponent < 0, Nat.toDigits 10 exponent.natAbs⟩⟩ (Nat.lt_of_le_of_lt few (by decide))
  obtain ⟨double, rounded, code⟩ := exists_ofNat? (Nat.le_trans few (by decide))
  -- The places behind the point count against the exponent.
  have total : (if exponent < 0 then -(fraction.length : Int) - exponent.natAbs
      else -(fraction.length : Int) + exponent.natAbs) = exponent - fraction.length := by
    split <;> omega
  have scaled : ∃ scaled, Numeral.scale? double (exponent - fraction.length) = some scaled := by
    rcases Int.lt_or_le (exponent - fraction.length) 0 with below | above
    · exact exists_scale?_of_negative double below
    · obtain ⟨places, same⟩ := Int.eq_ofNat_of_zero_le above
      obtain ⟨greatest, fits⟩ := small places same
      rw [same]
      exact exists_scale? code few greatest fits
  simp only [Numeral.magnitude?, significand, append_toDigits short, rounded,
    Option.bind_eq_bind, Option.bind_some, List.isEmpty_nil, if_true, decide_eq_true_eq, total]
  exact scaled

theorem greatest_of_significant {decimal : Decimal} {dropped : Nat}
    (significant : Significant decimal digits exponent dropped) (some : decimal.digits ≠ 0)
    (finite : decimal.fraction.1 * unit ≤ unitsOf largestCode * decimal.fraction.2) {places : Nat}
    (total : decimal.exponent + dropped = places) :
    places ≤ 308 ∧ digitsValue digits * (10 ^ places * unit) ≤ unitsOf largestCode := by
  have powers : 10 ^ places * Decimal.lower decimal.exponent = 10 ^ dropped * raise decimal.exponent := by
    simp only [raise, Decimal.lower, ← Nat.pow_add]
    congr 1
    omega
  have fits : digitsValue digits * (10 ^ places * unit) ≤ unitsOf largestCode := by
    generalize unit = one at finite ⊢
    generalize unitsOf largestCode = most at finite ⊢
    refine Nat.le_of_mul_le_mul_right ?_ (lower_pos decimal.exponent)
    calc digitsValue digits * (10 ^ places * one) * Decimal.lower decimal.exponent
        = digitsValue digits * (10 ^ places * Decimal.lower decimal.exponent) * one := by ac_rfl
      _ = digitsValue digits * 10 ^ dropped * raise decimal.exponent * one := by
          rw [powers, ← Nat.mul_assoc (digitsValue digits)]
      _ = decimal.fraction.1 * one := by rw [significant.value, fraction_eq]
      _ ≤ most * decimal.fraction.2 := finite
      _ = most * Decimal.lower decimal.exponent := by rw [fraction_eq]
  have positive : 0 < digitsValue digits :=
    Nat.pos_of_ne_zero fun zero => some (by rw [← significant.value, zero, Nat.zero_mul])
  obtain ⟨bound, same, limit⟩ : ∃ bound, bound = 309 ∧ unitsOf largestCode < 10 ^ bound * unit :=
    ⟨309, rfl, by decide +kernel⟩
  have least : 10 ^ places * unit ≤ digitsValue digits * (10 ^ places * unit) :=
    Nat.le_mul_of_pos_left _ positive
  have power := Nat.lt_of_mul_lt_mul_right (Nat.lt_of_le_of_lt (Nat.le_trans least fits) limit)
  have below := (Nat.pow_lt_pow_iff_right (by decide)).mp power
  exact ⟨by omega, fits⟩

theorem digitsValue_point_le (all : ∀ c ∈ digits, c.isDigit = true) {whole : Nat}
    (few : whole ≤ 16) (least : digitsValue digits ≤ 10 ^ 17) :
    digitsValue (digits.take whole ++ zeros (whole - digits.length) ++
      if (digits.drop whole).isEmpty then ['0'] else digits.drop whole) ≤ 10 ^ 18 := by
  by_cases inside : digits.length ≤ whole
  · have shape : digits.take whole ++ zeros (whole - digits.length) ++
        (if (digits.drop whole).isEmpty then ['0'] else digits.drop whole) =
        digits ++ List.replicate (whole - digits.length + 1) '0' := by
      simp [inside, List.take_of_length_le, zeros, List.replicate_succ']
    rw [shape, digitsValue_append_replicate]
    calc digitsValue digits * 10 ^ (whole - digits.length + 1)
        ≤ 10 ^ digits.length * 10 ^ (whole - digits.length + 1) :=
          Nat.mul_le_mul_right _ (Nat.le_of_lt (digitsValue_lt all))
      _ = 10 ^ (whole + 1) := by rw [← Nat.pow_add]; congr 1; omega
      _ ≤ 10 ^ 18 := Nat.pow_le_pow_right (by decide) (by omega)
  · have shape : digits.take whole ++ zeros (whole - digits.length) ++
        (if (digits.drop whole).isEmpty then ['0'] else digits.drop whole) = digits := by
      have none : whole - digits.length = 0 := by omega
      simp [inside, none, zeros]
    rw [shape]
    exact Nat.le_trans least (by decide)

theorem exists_value?_layoutNumeral {decimal : Decimal} {dropped : Nat} (negative : Bool)
    (significant : Significant decimal digits exponent dropped) (some : decimal.digits ≠ 0)
    (few : decimal.digits ≤ 10 ^ 17) (short : exponent.natAbs ≤ Numeral.exponentLimit)
    (finite : decimal.fraction.1 * unit ≤ unitsOf largestCode * decimal.fraction.2) :
    ∃ number, (layoutNumeral negative digits exponent).value? = Option.some number := by
  have least : digitsValue digits ≤ 10 ^ 17 := by
    have power : 0 < 10 ^ dropped := Nat.pow_pos (by decide)
    exact Nat.le_trans (Nat.le_mul_of_pos_right _ power) (significant.value ▸ few)
  have nonempty : digits ≠ [] := by
    obtain ⟨first, rest, rfl, -⟩ := significant.leading
    exact List.cons_ne_nil first rest
  have length := List.length_pos_iff.mpr nonempty
  unfold layoutNumeral
  split
  · refine exists_value? (.inr nofun) (exists_magnitude?_of_exponent negative ?_ short ?_)
    · rwa [List.take_append_drop]
    · rw [List.take_append_drop, List.length_drop]
      intro places same
      refine greatest_of_significant significant some finite ?_
      have := significant.exponent_eq
      omega
  split
  · refine exists_value? (.inl ?_) (exists_magnitude?_of_point rfl ?_ ?_)
    · simp [nonempty]
    · simp [nonempty]
    · change digitsValue (List.replicate (exponent.natAbs - 1 + 1) '0' ++ digits) ≤ _
      rw [digitsValue_replicate_append]
      exact Nat.le_trans least (by decide)
  · refine exists_value? (.inl ?_) (exists_magnitude?_of_point rfl ?_ ?_)
    · dsimp only
      split <;> simp_all
    · dsimp only
      split <;> simp_all
    · exact digitsValue_point_le significant.all (by simp at *; omega) least

theorem scientific_shortest {value : Double} (nonzero : value.isZero = false) :
    scientific (shortest value.code) = ([], 0) ∨
      (shortest value.code).digits ≠ 0 ∧ ∃ dropped, Significant (shortest value.code)
        (scientific (shortest value.code)).1 (scientific (shortest value.code)).2 dropped := by
  by_cases unreadable : shortest value.code = ⟨0, 0⟩
  · rw [unreadable]
    exact .inl (by decide)
  · have some := shortest_digits_ne (by simpa [isZero] using nonzero) unreadable
    exact .inr ⟨some, significant_scientific some (shortest_digits_le value.code)⟩

theorem text_eq (value : Double) : value.text = value.numeral.text := by
  unfold text numeral Numeral.text
  cases nonzero : value.isZero with
  | true => simp [Numeral.unsignedText]
  | false =>
      have written : 0 ≤ (scientific (shortest value.code)).2 ∨
          (scientific (shortest value.code)).1 ≠ [] := by
        rcases scientific_shortest nonzero with zero | ⟨-, dropped, significant⟩
        · exact .inl (zero ▸ Int.le_refl 0)
        · obtain ⟨first, rest, same, -⟩ := significant.leading
          exact .inr (same ▸ List.cons_ne_nil first rest)
      simp only [Bool.false_eq_true, if_false, layoutNumeral_negative,
        layout_eq value.negative written]

theorem numeral_cases (value : Double) :
    value.numeral = ⟨value.negative, ['0'], ['0'], none⟩ ∨
      (shortest value.code).digits ≠ 0 ∧ ∃ digits exponent dropped,
        Significant (shortest value.code) digits exponent dropped ∧
          value.numeral = layoutNumeral value.negative digits exponent := by
  unfold numeral
  cases nonzero : value.isZero with
  | true => exact .inl rfl
  | false =>
      rcases scientific_shortest nonzero with zero | ⟨some, dropped, significant⟩
      · rw [zero]
        exact .inl rfl
      · exact .inr ⟨some, _, _, dropped, significant, rfl⟩

theorem wellFormed_numeral (value : Double) : value.numeral.WellFormed := by
  rcases value.numeral_cases with zero | ⟨-, digits, exponent, dropped, significant, layout⟩
  · rw [zero]
    exact ⟨by simp, by simp, by simp, by simp, by simp⟩
  · rw [layout]
    exact wellFormed_layoutNumeral value.negative significant.all significant.leading

theorem exists_value?_numeral (value : Double) :
    ∃ number, value.numeral.value? = some number := by
  rcases value.numeral_cases with
    zero | ⟨some, digits, exponent, dropped, significant, layout⟩
  · have small : digitsValue ['0', '0'] ≤ 10 ^ 18 := by decide
    rw [zero]
    exact exists_value? (.inl (by simp)) (exists_magnitude?_of_point rfl (by simp) small)
  · have exponents := natAbs_exponent_le value.code_lt
    have short : exponent.natAbs ≤ Numeral.exponentLimit := by
      have := significant.exponent_eq
      have := significant.short
      have := significant.dropped_le
      simp only [Numeral.exponentLimit]
      omega
    rw [layout]
    exact exists_value?_layoutNumeral value.negative significant some
      (shortest_digits_le value.code) short (shortest_le value.code_lt)

end Waymark.Double
