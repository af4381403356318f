import Waymark.Json
/-!
# Equality of values

The equality that changes go by takes the two zeros among the doubles for one: two values are the
same exactly when they differ in nothing but the signs of zeros. A whole number is never the same as
a double. The equality extends to values that may be missing.
-/

namespace Waymark

def Double.plain (value : Double) : Double :=
  if value.isZero then .zero false else value

theorem Double.same_iff {a b : Double} : a.same b = true ↔ a.plain = b.plain := by
  obtain ⟨negative, code, bound⟩ := a
  obtain ⟨other, second, limit⟩ := b
  simp only [same, plain, isZero, zero, Bool.and_eq_true, Bool.or_eq_true, beq_iff_eq,
    decide_eq_true_eq]
  by_cases first : code = 0 <;> by_cases last : second = 0 <;> grind

def Number.plain : Number → Number
  | .integer value => .integer value
  | .double value => .double value.plain

theorem Number.same_iff {a b : Number} : a.same b = true ↔ a.plain = b.plain := by
  cases a <;> cases b <;> simp [Number.same, Number.plain, Double.same_iff]

namespace Json

mutual

/-- The value without the signs of its zeros. -/
def plain : Json → Json
  | .number value => .number value.plain
  | .array items => .array (plainItems items)
  | .object members => .object (plainMembers members)
  | .null => .null
  | .boolean value => .boolean value
  | .string value => .string value

def plainItems : List Json → List Json
  | [] => []
  | item :: items => plain item :: plainItems items

def plainMembers : List (String × Json) → List (String × Json)
  | [] => []
  | (name, value) :: members => (name, plain value) :: plainMembers members

end

mutual

theorem same_iff {a b : Json} : a.same b = true ↔ a.plain = b.plain := by
  cases a <;> cases b <;> simp only [Json.same, plain, Bool.false_eq_true, reduceCtorEq,
    decide_eq_true_eq, Json.boolean.injEq, Json.number.injEq, Json.string.injEq, Json.array.injEq,
    Json.object.injEq]
  case number.number => exact Number.same_iff
  case array.array => exact sameItems_iff
  case object.object => exact sameMembers_iff
termination_by structural a

theorem sameItems_iff {as bs : List Json} :
    sameItems as bs = true ↔ plainItems as = plainItems bs := by
  cases as <;> cases bs <;> simp only [sameItems, plainItems, Bool.false_eq_true, reduceCtorEq,
    Bool.and_eq_true, List.cons.injEq]
  case cons.cons => exact and_congr same_iff sameItems_iff
termination_by structural as

theorem sameMembers_iff {as bs : List (String × Json)} :
    sameMembers as bs = true ↔ plainMembers as = plainMembers bs := by
  cases as <;> cases bs <;> simp only [sameMembers, plainMembers, Bool.false_eq_true, reduceCtorEq]
  case cons.cons a as b bs =>
      obtain ⟨name, x⟩ := a
      obtain ⟨other, y⟩ := b
      simp only [Bool.and_eq_true, decide_eq_true_eq, List.cons.injEq, Prod.mk.injEq]
      exact and_congr (and_congr_right fun _ => same_iff) sameMembers_iff
termination_by structural as

end

theorem same_refl (value : Json) : value.same value = true :=
  same_iff.mpr rfl

theorem same_symm {a b : Json} (same : a.same b = true) : b.same a = true :=
  same_iff.mpr (same_iff.mp same).symm

theorem same_trans {a b c : Json} (first : a.same b = true) (second : b.same c = true) :
    a.same c = true :=
  same_iff.mpr ((same_iff.mp first).trans (same_iff.mp second))

def sameOrMissing : Option Json → Option Json → Bool
  | none, none => true
  | some a, some b => a.same b
  | _, _ => false

theorem sameOrMissing_refl (value : Option Json) : sameOrMissing value value = true := by
  cases value with
  | none => rfl
  | some value => exact same_refl value

theorem sameOrMissing_iff {a b : Option Json} :
    sameOrMissing a b = true ↔ a.map plain = b.map plain := by
  cases a <;> cases b <;> simp [sameOrMissing, same_iff]

theorem sameOrMissing_trans {a b c : Option Json} (first : sameOrMissing a b = true)
    (second : sameOrMissing b c = true) : sameOrMissing a c = true := by
  cases a <;> cases b <;> simp only [sameOrMissing, Bool.false_eq_true] at first <;>
    cases c <;> simp only [sameOrMissing, Bool.false_eq_true] at second ⊢
  case some.some.some => exact same_trans first second

theorem sameOrMissing_some {old : Option Json} {value : Json} :
    sameOrMissing old (some value) = old.any (·.same value) := by
  cases old <;> rfl

end Json
end Waymark
