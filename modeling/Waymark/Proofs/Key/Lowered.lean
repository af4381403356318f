import Waymark.Proofs.Text.Case
/-!
# Lower case between separators

A separator is its own lower case, no other character's lower case has one, and a sigma does not
look past it. So the lower case of a key consists of the lower cases of the parts between its
separators: `lowerBehind_append` joins it, and `lowerBehind_split` takes it apart again.
-/

namespace Waymark.Key
open Text

variable {separator : Char}

theorem isSeparator_iff {c : Char} : isSeparator c = true ↔ c = '\\' ∨ c = '/' := by
  simp [isSeparator]

theorem isCaseIgnorable_separator (isSep : isSeparator separator = true) :
    isCaseIgnorable separator = false := by
  rcases isSeparator_iff.mp isSep with rfl | rfl <;> decide

theorem isCased_separator (isSep : isSeparator separator = true) : isCased separator = false := by
  rcases isSeparator_iff.mp isSep with rfl | rfl <;> decide

theorem lowerChar_separator (isSep : isSeparator separator = true) :
    lowerChar separator = [separator] := by
  rcases isSeparator_iff.mp isSep with rfl | rfl <;> decide

theorem toNat_separator (isSep : isSeparator separator = true) :
    separator.toNat = 92 ∨ separator.toNat = 47 := by
  rcases isSeparator_iff.mp isSep with rfl | rfl
  · exact .inl rfl
  · exact .inr rfl

theorem lowerRuns_large : lowerRuns.all (fun run => 92 < run.first + run.shift) = true := by
  decide

theorem large_of_lowerRun? {code : Nat} {run : CaseRun} (found : lowerRun? code = some run) :
    92 < (code + run.shift).toNat := by
  unfold lowerRun? at found
  split at found
  · cases found
  · rename_i first rest ahead
    split at found
    · rename_i covered
      cases found
      have listed : run ∈ lowerRuns := by
        refine (List.dropWhile_suffix (·.last < code)).subset ?_
        rw [ahead]
        exact List.mem_cons_self
      have large : 92 < run.first + run.shift := by
        simpa using List.all_eq_true.mp lowerRuns_large run listed
      have reached : run.first ≤ code := by
        simp only [CaseRun.covers, Bool.and_eq_true, decide_eq_true_eq] at covered
        exact covered.1.1
      omega
    · cases found

theorem eq_of_mem_lowerChar {c : Char} (isSep : isSeparator separator = true)
    (inside : separator ∈ lowerChar c) : c = separator := by
  have small := toNat_separator isSep
  unfold lowerChar at inside
  split at inside
  · have code := congrArg Char.toNat (List.mem_singleton.mp inside)
    rw [toNat_toLower] at code
    split at code
    · omega
    · exact (Char.toNat_inj.mp code).symm
  split at inside
  · rcases isSeparator_iff.mp isSep with rfl | rfl <;> simp at inside
  split at inside
  · rename_i run found
    have code := congrArg Char.toNat (List.mem_singleton.mp inside)
    have large := large_of_lowerRun? found
    rw [Char.toNat_ofNat] at code
    split at code <;> omega
  · exact (List.mem_singleton.mp inside).symm

theorem startsCased_append (isSep : isSeparator separator = true) (text rest : List Char) :
    startsCased (text ++ separator :: rest) = startsCased text := by
  induction text with
  | nil =>
      rw [List.nil_append, startsCased_cons, isCaseIgnorable_separator isSep,
        isCased_separator isSep]
      rfl
  | cons c text ih => rw [List.cons_append, startsCased_cons, startsCased_cons, ih]

def lowered (before : List Char) (c : Char) (rest : List Char) : List Char :=
  if c = 'Σ' then (if startsCased before && !startsCased rest then ['ς'] else ['σ'])
  else lowerChar c

theorem lowerBehind_cons (before : List Char) (c : Char) (rest : List Char) :
    lowerBehind before (c :: rest) = lowered before c rest ++ lowerBehind (c :: before) rest :=
  rfl

theorem lowered_append (isSep : isSeparator separator = true) (before : List Char) (c : Char)
    (text rest : List Char) :
    lowered before c (text ++ separator :: rest) = lowered before c text := by
  rw [lowered, lowered, startsCased_append isSep]

theorem lowered_separator (isSep : isSeparator separator = true) (before rest : List Char) :
    lowered before separator rest = [separator] := by
  have noSigma : separator ≠ 'Σ' := by
    rcases isSeparator_iff.mp isSep with rfl | rfl <;> decide
  rw [lowered, if_neg noSigma, lowerChar_separator isSep]

theorem eq_of_mem_lowered {before rest : List Char} {c : Char}
    (isSep : isSeparator separator = true)
    (inside : separator ∈ lowered before c rest) : c = separator := by
  unfold lowered at inside
  split at inside
  · split at inside <;> rcases isSeparator_iff.mp isSep with rfl | rfl <;> simp at inside
  · exact eq_of_mem_lowerChar isSep inside

theorem lowerBehind_separator (isSep : isSeparator separator = true)
    (front before text : List Char) :
    lowerBehind (front ++ separator :: before) text = lowerBehind front text := by
  induction text generalizing front with
  | nil => rfl
  | cons c text ih =>
      rw [lowerBehind_cons, lowerBehind_cons, ← List.cons_append, ih, lowered, lowered,
        startsCased_append isSep]

theorem lowerBehind_after (isSep : isSeparator separator = true) (before text : List Char) :
    lowerBehind (separator :: before) text = lowerBehind [] text :=
  lowerBehind_separator isSep [] before text

theorem lowerBehind_append (isSep : isSeparator separator = true) (before text rest : List Char) :
    lowerBehind before (text ++ separator :: rest) =
      lowerBehind before text ++ separator :: lowerBehind [] rest := by
  induction text generalizing before with
  | nil =>
      rw [List.nil_append, lowerBehind_cons, lowered_separator isSep, lowerBehind_after isSep]
      rfl
  | cons c text ih =>
      rw [List.cons_append, lowerBehind_cons, lowerBehind_cons, lowered_append isSep, ih,
        List.append_assoc]

theorem append_eq_append_cons {α : Type} {front back start rest : List α} {a : α}
    (same : front ++ back = start ++ a :: rest) :
    (∃ more, start = front ++ more ∧ back = more ++ a :: rest) ∨
      ∃ more, front = start ++ a :: more ∧ rest = more ++ back := by
  rcases List.append_eq_append_iff.mp same with short | ⟨more, rfl, behind⟩
  · exact .inl short
  · cases more with
    | nil => exact .inl ⟨[], by simp, behind.symm⟩
    | cons b more =>
        obtain ⟨rfl, rfl⟩ := List.cons.inj behind
        exact .inr ⟨more, rfl, rfl⟩

/-- A separator in a lower case stands for one in the text, at which both come apart. -/
theorem lowerBehind_split (isSep : isSeparator separator = true)
    {before text front back : List Char}
    (parts : lowerBehind before text = front ++ separator :: back) :
    ∃ start rest, text = start ++ separator :: rest ∧ lowerBehind before start = front ∧
      lowerBehind [] rest = back := by
  induction text generalizing before front with
  | nil => simp [lowerBehind] at parts
  | cons c text ih =>
      rw [lowerBehind_cons] at parts
      rcases append_eq_append_cons parts with ⟨more, rfl, behind⟩ | ⟨more, here, behind⟩
      · obtain ⟨start, rest, rfl, front, back⟩ := ih behind
        refine ⟨c :: start, rest, rfl, ?_, back⟩
        rw [lowerBehind_cons, front, lowered_append isSep]
      · have inside : separator ∈ lowered before c text := by simp [here]
        obtain rfl := eq_of_mem_lowered isSep inside
        obtain ⟨rfl, rfl⟩ : front = [] ∧ more = [] := by
          simpa [lowered_separator isSep, List.singleton_eq_append_iff] using here
        exact ⟨[], text, rfl, rfl, (lowerBehind_after isSep before text).symm.trans behind.symm⟩

end Waymark.Key
