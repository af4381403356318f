import Mathlib
import Waymark.Key
/-!
# Equality but for case

Two texts are the same but for case exactly when their lower cases are equal, so this equality is
an equivalence. The comparison of ASCII letters is a shortcut that never changes the answer.
-/

namespace Waymark.Text

theorem toNat_toLower (c : Char) :
    c.toLower.toNat = if 65 ≤ c.toNat ∧ c.toNat ≤ 90 then c.toNat + 32 else c.toNat := by
  unfold Char.toLower
  split
  · rename_i upper
    have range : 65 ≤ c.toNat ∧ c.toNat ≤ 90 := upper
    rw [if_pos range]
    change (c.val + 32).toNat = c.val.toNat + 32
    have small : c.val.toNat ≤ 90 := range.2
    rw [UInt32.toNat_add, Nat.mod_eq_of_lt]
    · rfl
    · change c.val.toNat + 32 < 4294967296
      omega
  · rename_i other
    exact (if_neg other).symm

theorem isAlpha_iff (c : Char) :
    c.isAlpha = true ↔ 65 ≤ c.toNat ∧ c.toNat ≤ 90 ∨ 97 ≤ c.toNat ∧ c.toNat ≤ 122 := by
  simp only [Char.isAlpha, Char.isUpper, Char.isLower, Bool.or_eq_true, Bool.and_eq_true,
    decide_eq_true_eq, ge_iff_le, UInt32.le_iff_toNat_le]
  exact Iff.rfl

theorem isAlpha_of_toLower_eq {c d : Char} (same : c.toLower = d.toLower) (different : c ≠ d) :
    c.isAlpha = true ∧ d.isAlpha = true := by
  have codes := congrArg Char.toNat same
  have apart : c.toNat ≠ d.toNat := fun equal => different (Char.toNat_inj.mp equal)
  rw [toNat_toLower, toNat_toLower] at codes
  rw [isAlpha_iff, isAlpha_iff]
  split at codes <;> split at codes <;> omega

structure Alike (c d : Char) : Prop where
  cased : isCased c = isCased d
  ignorable : isCaseIgnorable c = isCaseIgnorable d
  sigma : c = 'Σ' ↔ d = 'Σ'
  lowered : lowerChar c = lowerChar d

theorem isCaseIgnorable_of_isAlpha {c : Char} (letter : c.isAlpha = true) :
    isCaseIgnorable c = false := by
  rw [isAlpha_iff] at letter
  rw [isCaseIgnorable, if_pos (by omega)]
  simp
  omega

theorem alike_of_toLower_eq {c d : Char} (same : c.toLower = d.toLower) : Alike c d := by
  by_cases equal : c = d
  · exact equal ▸ ⟨rfl, rfl, .rfl, rfl⟩
  · obtain ⟨letter, other⟩ := isAlpha_of_toLower_eq same equal
    have ascii : ∀ {e : Char}, e.isAlpha = true → e.toNat < 128 := fun {e} isLetter => by
      rw [isAlpha_iff] at isLetter
      omega
    have noSigma : ∀ {e : Char}, e.isAlpha = true → e ≠ 'Σ' := by
      rintro _ isLetter rfl
      exact absurd (ascii isLetter) (by decide)
    exact {
      cased := by simp only [isCased, if_pos (ascii letter), if_pos (ascii other), letter, other]
      ignorable := by rw [isCaseIgnorable_of_isAlpha letter, isCaseIgnorable_of_isAlpha other]
      sigma := iff_of_false (noSigma letter) (noSigma other)
      lowered := by
        simp only [lowerChar, if_pos (ascii letter), if_pos (ascii other), same] }

theorem sameAscii_iff (as bs : List Char) :
    sameAscii as bs = true ↔ as.map Char.toLower = bs.map Char.toLower := by
  induction as generalizing bs with
  | nil => cases bs <;> simp [sameAscii]
  | cons c rest ih => cases bs <;> simp [sameAscii, ih]

theorem startsCased_cons (c : Char) (rest : List Char) :
    startsCased (c :: rest) = if isCaseIgnorable c then startsCased rest else isCased c := by
  cases skipped : isCaseIgnorable c <;> simp [startsCased, skipped]

theorem startsCased_of_map_eq {as bs : List Char}
    (same : as.map Char.toLower = bs.map Char.toLower) : startsCased as = startsCased bs := by
  induction as generalizing bs with
  | nil => rw [List.map_eq_nil_iff.mp same.symm]
  | cons c rest ih =>
      obtain ⟨d, others, rfl, first, more⟩ := List.map_eq_cons_iff.mp same.symm
      have alike := alike_of_toLower_eq first
      rw [startsCased_cons, startsCased_cons, ih more.symm, alike.ignorable, alike.cased]

/-- Only the classes of the characters around a sigma matter to it, and not their case. -/
theorem lowerBehind_of_map_eq {before other as bs : List Char}
    (behind : before.map Char.toLower = other.map Char.toLower)
    (same : as.map Char.toLower = bs.map Char.toLower) :
    lowerBehind before as = lowerBehind other bs := by
  induction as generalizing before other bs with
  | nil => rw [List.map_eq_nil_iff.mp same.symm]; rfl
  | cons c rest ih =>
      obtain ⟨d, others, rfl, first, more⟩ := List.map_eq_cons_iff.mp same.symm
      have alike := alike_of_toLower_eq first
      have next : lowerBehind (c :: before) rest = lowerBehind (d :: other) others :=
        ih (by rw [List.map_cons, List.map_cons, first, behind]) more.symm
      rw [lowerBehind, lowerBehind, next, startsCased_of_map_eq behind,
        startsCased_of_map_eq more.symm, alike.lowered]
      simp only [alike.sigma]

theorem lowerBehind_of_isAscii {text : List Char} (ascii : isAscii text = true)
    (before : List Char) : lowerBehind before text = text.map Char.toLower := by
  induction text generalizing before with
  | nil => rfl
  | cons c rest ih =>
      obtain ⟨small, others⟩ := List.forall_mem_cons.mp (List.all_eq_true.mp ascii)
      have small : c.toNat < 128 := of_decide_eq_true small
      have noSigma : c ≠ 'Σ' := by
        rintro rfl
        exact absurd small (by decide)
      rw [lowerBehind, if_neg noSigma, ih (List.all_eq_true.mpr others), lowerChar, if_pos small]
      rfl

theorem sameButCase_iff (a b : String) : sameButCase a b = true ↔ lower a = lower b := by
  have ofAscii : sameAscii a.toList b.toList = true → lower a = lower b := fun same =>
    congrArg String.ofList (lowerBehind_of_map_eq rfl ((sameAscii_iff _ _).mp same))
  simp only [sameButCase, Bool.or_eq_true, Bool.and_eq_true, Bool.not_eq_true', beq_iff_eq]
  constructor
  · rintro (same | ⟨-, same⟩)
    · exact ofAscii same
    · exact same
  · intro same
    cases ascii : isAscii a.toList && isAscii b.toList with
    | false => exact .inr ⟨rfl, same⟩
    | true =>
        obtain ⟨first, second⟩ := Bool.and_eq_true_iff.mp ascii
        have lowered := String.ofList_injective same
        rw [lowerBehind_of_isAscii first, lowerBehind_of_isAscii second] at lowered
        exact .inl ((sameAscii_iff _ _).mpr lowered)

theorem lowerChar_ne_nil (c : Char) : lowerChar c ≠ [] := by
  unfold lowerChar
  split
  · exact List.cons_ne_nil _ _
  split
  · exact List.cons_ne_nil _ _
  split <;> exact List.cons_ne_nil _ _

theorem eq_nil_of_lowerBehind {before text : List Char} (lowered : lowerBehind before text = []) :
    text = [] := by
  cases text with
  | nil => rfl
  | cons c rest =>
      rw [lowerBehind, List.append_eq_nil_iff] at lowered
      have first := lowered.1
      split at first
      · split at first <;> cases first
      · exact absurd first (lowerChar_ne_nil c)

theorem eq_empty_of_lower {text : String} (lowered : lower text = "") : text = "" :=
  String.toList_eq_nil_iff.mp (eq_nil_of_lowerBehind (String.ofList_injective lowered))

end Waymark.Text
