import Waymark.Text.Case
/-!
# The order of texts

Texts are compared character by character. Their UTF-8 bytes compare in the same way, because the
bytes of a later character are later than those of an earlier one, whatever follows them.
-/

namespace Waymark.Text

def bytes (text : String) : List UInt8 :=
  text.toUTF8.data.toList

theorem bytes_eq (text : String) : bytes text = text.toList.flatMap String.utf8EncodeChar := by
  have encoded : text.toUTF8 = (text.toList.flatMap String.utf8EncodeChar).toByteArray :=
    String.utf8Encode_toList.symm
  rw [bytes, encoded, List.toList_data_toByteArray]

theorem ofNat_lt_iff {a b : Nat} (small : a < 256) (little : b < 256) :
    UInt8.ofNat a < UInt8.ofNat b ↔ a < b := by
  rw [UInt8.lt_iff_toNat_lt, UInt8.toNat_ofNat_of_lt' small, UInt8.toNat_ofNat_of_lt' little]

theorem ofNat_eq_iff {a b : Nat} (small : a < 256) (little : b < 256) :
    UInt8.ofNat a = UInt8.ofNat b ↔ a = b := by
  rw [← UInt8.toNat_inj, UInt8.toNat_ofNat_of_lt' small, UInt8.toNat_ofNat_of_lt' little]

theorem utf8EncodeChar_lt {c d : Char} (before : c < d) (rest others : List UInt8) :
    String.utf8EncodeChar c ++ rest < String.utf8EncodeChar d ++ others := by
  have codes : c.val.toNat < d.val.toNat := before
  have inside : d.val.toNat < 1114112 := by
    have valid := d.valid
    simp only [UInt32.isValidChar, Nat.isValidChar] at valid
    omega
  have twice (code : Nat) : code / 4096 = code / 64 / 64 := by
    rw [Nat.div_div_eq_div_mul]
  have thrice (code : Nat) : code / 262144 = code / 64 / 64 / 64 := by
    rw [Nat.div_div_eq_div_mul, Nat.div_div_eq_div_mul]
  simp only [String.utf8EncodeChar, twice, thrice]
  repeat' split
  all_goals
    simp (disch := omega) only [List.cons_append, List.nil_append, List.cons_lt_cons_iff,
      ofNat_lt_iff, ofNat_eq_iff]
    omega

theorem flatMap_utf8EncodeChar_lt {a b : List Char} (before : a < b) :
    a.flatMap String.utf8EncodeChar < b.flatMap String.utf8EncodeChar := by
  induction a generalizing b with
  | nil =>
      cases b with
      | nil => exact absurd before (List.not_lt_nil [])
      | cons d others =>
          obtain ⟨first, rest, encoded⟩ :=
            List.exists_cons_of_ne_nil (String.utf8EncodeChar_ne_nil (c := d))
          rw [List.flatMap_cons, encoded]
          exact List.nil_lt_cons _ _
  | cons c rest ih =>
      cases b with
      | nil => exact absurd before (List.not_lt_nil _)
      | cons d others =>
          rw [List.flatMap_cons, List.flatMap_cons]
          rcases List.cons_lt_cons_iff.mp before with less | ⟨rfl, less⟩
          · exact utf8EncodeChar_lt less _ _
          · exact List.append_left_lt (ih less)

theorem bytes_lt_iff {a b : String} : bytes a < bytes b ↔ a < b := by
  rw [bytes_eq, bytes_eq]
  refine ⟨fun less => Decidable.byContradiction fun notBefore => ?_, flatMap_utf8EncodeChar_lt⟩
  by_cases after : b < a
  · exact List.lt_asymm less (flatMap_utf8EncodeChar_lt after)
  · rw [String.le_antisymm (String.not_lt.mp after) (String.not_lt.mp notBefore)] at less
    exact List.lt_irrefl _ less

theorem bytes_le_iff {a b : String} : bytes a ≤ bytes b ↔ a ≤ b := by
  rw [← List.not_lt, bytes_lt_iff, String.not_lt]

end Waymark.Text
