import Waymark.Proofs.Bag.Difference
import Waymark.Proofs.Text.Bytes
/-!
# Names that count as one

Two names count as one if their lower cases are equal. The bytes of names that differ only in the
case of ASCII letters tell the same, and so does every bag.
-/

namespace Waymark

namespace Text

def lowerByte (byte : UInt8) : UInt8 :=
  if 65 ≤ byte ∧ byte ≤ 90 then byte + 32 else byte

def sameBytes (a b : String) : Bool :=
  (bytes a).length = (bytes b).length &&
    ((bytes a).zip (bytes b)).all fun pair => lowerByte pair.1 = lowerByte pair.2

theorem length_and_zip_all_iff {α β : Type} [DecidableEq β] (f : α → β) (as bs : List α) :
    (as.length = bs.length && (as.zip bs).all fun pair => f pair.1 = f pair.2) = true ↔
      as.map f = bs.map f := by
  induction as generalizing bs with
  | nil => cases bs <;> simp
  | cons a as ih =>
      cases bs with
      | nil => simp
      | cons b bs =>
          have rest := ih bs
          simp only [Bool.and_eq_true, decide_eq_true_eq] at rest
          simp only [List.length_cons, Nat.add_right_cancel_iff, List.zip_cons_cons, List.all_cons,
            Bool.and_eq_true, decide_eq_true_eq, List.map_cons, List.cons.injEq, ← rest]
          exact and_left_comm

theorem lowerByte_ofNat {code : Nat} (little : code < 128) :
    lowerByte (UInt8.ofNat code) =
      UInt8.ofNat (if 65 ≤ code ∧ code ≤ 90 then code + 32 else code) := by
  have byte : (UInt8.ofNat code).toNat = code := by
    rw [UInt8.toNat_ofNat', Nat.mod_eq_of_lt (by omega)]
  have range : (65 ≤ UInt8.ofNat code ∧ UInt8.ofNat code ≤ 90) ↔ 65 ≤ code ∧ code ≤ 90 := by
    rw [UInt8.le_iff_toNat_le, UInt8.le_iff_toNat_le, byte]
    rfl
  simp only [lowerByte, range]
  split
  · rw [UInt8.ofNat_add]
    rfl
  · rfl

theorem le_of_mem_utf8EncodeChar {c : Char} (large : 128 ≤ c.toNat) :
    ∀ byte ∈ String.utf8EncodeChar c, 128 ≤ byte.toNat := by
  have code : 128 ≤ c.val.toNat := large
  simp only [String.utf8EncodeChar]
  repeat' split
  · omega
  all_goals
    simp only [List.forall_mem_cons, UInt8.toNat_ofNat', List.not_mem_nil, false_implies,
      implies_true, and_true]
    omega

theorem lowerByte_of_le {byte : UInt8} (large : 128 ≤ byte.toNat) : lowerByte byte = byte := by
  refine if_neg fun upper => ?_
  have small : byte.toNat ≤ 90 := upper.2
  omega

/-- A character is lower-cased as its bytes are, if only ASCII letters have a case. -/
theorem map_lowerByte_utf8EncodeChar (c : Char) :
    (String.utf8EncodeChar c).map lowerByte = String.utf8EncodeChar c.toLower := by
  by_cases little : c.toNat < 128
  · have ascii {d : Char} (little : d.toNat < 128) :
        String.utf8EncodeChar d = [UInt8.ofNat d.toNat] :=
      if_pos (Nat.le_of_lt_succ little)
    have lower := toNat_toLower c
    rw [ascii little, ascii (by split at lower <;> omega), List.map_singleton,
      lowerByte_ofNat little, lower]
  · have stays : c.toLower = c := by
      rw [← Char.toNat_inj, toNat_toLower, if_neg (by omega)]
    have bytes : ∀ byte ∈ String.utf8EncodeChar c, lowerByte byte = id byte := fun byte inside =>
      lowerByte_of_le (le_of_mem_utf8EncodeChar (Nat.le_of_not_lt little) byte inside)
    rw [stays, List.map_congr_left bytes, List.map_id]

theorem map_lowerByte_bytes (text : String) : (bytes text).map lowerByte = bytes (lowerAscii text) := by
  rw [bytes_eq, bytes_eq, lowerAscii, String.toList_ofList, List.map_flatMap, List.flatMap_map]
  simp only [map_lowerByte_utf8EncodeChar]

theorem bytes_inj {a b : String} : bytes a = bytes b ↔ a = b := by
  refine ⟨fun same => ?_, congrArg bytes⟩
  apply String.le_antisymm
  · exact bytes_le_iff.mp (same ▸ List.le_refl _)
  · exact bytes_le_iff.mp (same ▸ List.le_refl _)

theorem sameBytes_eq (a b : String) : sameBytes a b = sameAscii a.toList b.toList := by
  rw [Bool.eq_iff_iff, sameBytes, length_and_zip_all_iff, map_lowerByte_bytes, map_lowerByte_bytes,
    bytes_inj, sameAscii_iff, lowerAscii, lowerAscii, String.ofList_inj]

/-- The comparison of bytes comes before that of lower cases, and never changes its answer. -/
theorem sameButCase_eq (a b : String) :
    sameButCase a b = (sameBytes a b || lower a == lower b) := by
  have shortcut : sameAscii a.toList b.toList = true → lower a = lower b := fun same =>
    (sameButCase_iff a b).mp (by rw [sameButCase, same, Bool.true_or])
  rw [Bool.eq_iff_iff, sameButCase_iff, sameBytes_eq, Bool.or_eq_true, beq_iff_eq,
    or_iff_right_of_imp shortcut]

end Text

namespace Bag

open Text (lower sameBytes sameButCase sameButCase_iff)

theorem properties_single {name : String} (nonempty : name ≠ "") (value : Json) :
    (empty.set name value).1.properties = [⟨name, value⟩] := by
  rw [set, dif_neg nonempty]
  rfl

theorem find?_single {name other : String} (nonempty : name ≠ "") (value : Json) :
    (empty.set name value).1.find? other =
      if lower name = lower other then some ⟨name, value⟩ else none := by
  rw [find?, findKey?, properties_single nonempty, List.find?_singleton]
  by_cases same : lower name = lower other
  · rw [if_pos same]
    exact if_pos (decide_eq_true same)
  · rw [if_neg same]
    exact if_neg fun found => same (of_decide_eq_true found)

theorem lower_eq_of_find? {a b : String} (same : ∀ bag : Bag, bag.find? a = bag.find? b) :
    lower a = lower b := by
  by_cases nonempty : a = ""
  · by_cases other : b = ""
    · rw [nonempty, other]
    · have found := same (empty.set b .null).1
      rw [nonempty, find?_empty_name, find?_single other, if_pos rfl] at found
      cases found
  · have found := same (empty.set a .null).1
    rw [find?_single nonempty, find?_single nonempty, if_pos rfl] at found
    split at found
    · assumption
    · cases found

/-- Names are the same but for case exactly if their lower cases are equal, although those that
differ only in the case of ASCII letters are told by their bytes. This is an equivalence, and a bag
finds a property under just the names that are equivalent to its own. -/
theorem sameButCase_tells_names :
    (∀ a b, sameButCase a b = (sameBytes a b || lower a == lower b)) ∧
      (∀ a b, sameButCase a b = true ↔ lower a = lower b) ∧
      Equivalence (fun a b => sameButCase a b = true) ∧
      (∀ (bag : Bag) (name : String),
        bag.find? name = bag.properties.find? fun property => sameButCase property.name name) ∧
      ∀ a b, sameButCase a b = true ↔ ∀ bag : Bag, bag.find? a = bag.find? b := by
  refine ⟨Text.sameButCase_eq, sameButCase_iff, ?_, fun bag name => ?_, fun a b => ?_⟩
  · simp only [sameButCase_iff]
    exact ⟨fun _ => rfl, Eq.symm, Eq.trans⟩
  · refine congrArg (List.find? · bag.properties) (funext fun property => ?_)
    rw [Bool.eq_iff_iff, sameButCase_iff, decide_eq_true_iff]
    rfl
  · rw [sameButCase_iff]
    refine ⟨fun same bag => ?_, lower_eq_of_find?⟩
    rw [find?, find?, same]

/-- A capital sigma is not final before an ASCII letter of either case, but it is before a digit. -/
example : sameButCase "ΑΣb" "ασB" = true ∧ sameButCase "ΑΣ1" "ας1" = true ∧
    sameButCase "ΑΣb" "αςb" = false ∧ sameBytes "ΑΣb" "ασB" = false := by
  decide +kernel

end Bag
end Waymark
