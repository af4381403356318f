import Waymark.Proofs.Key.Lowered
/-!
# At a root or under it

A key is under a root when it goes on behind a separator where the root ends, separators at the end
of the root apart. In lower case this is a relation between two lists of characters, which is
transitive; separators at the end of the key in the middle do not matter to it.
-/

namespace Waymark.Key
open Text

theorem rdropWhile_isSeparator (key : List Char) :
    key.rdropWhile isSeparator = dropSeparatorsAtEnd key :=
  rfl

theorem dropSeparatorsAtEnd_append (front back : List Char) :
    dropSeparatorsAtEnd (front ++ back) =
      if dropSeparatorsAtEnd back = [] then dropSeparatorsAtEnd front
      else front ++ dropSeparatorsAtEnd back := by
  unfold dropSeparatorsAtEnd
  rw [List.reverse_append, List.dropWhile_append]
  simp only [List.isEmpty_iff, List.reverse_eq_nil_iff]
  split <;> simp

theorem prefix_dropSeparatorsAtEnd (key : List Char) : dropSeparatorsAtEnd key <+: key :=
  key.rdropWhile_prefix isSeparator

theorem dropSeparatorsAtEnd_idempotent (key : List Char) :
    dropSeparatorsAtEnd (dropSeparatorsAtEnd key) = dropSeparatorsAtEnd key :=
  key.rdropWhile_idempotent isSeparator

theorem dropSeparatorsAtEnd_eq_self {key : List Char}
    (bare : ∀ front separator, isSeparator separator = true → key ≠ front ++ [separator]) :
    dropSeparatorsAtEnd key = key := by
  refine List.rdropWhile_eq_self_iff.mpr fun some isSep => ?_
  exact bare _ _ isSep (List.dropLast_append_getLast some).symm

theorem lowerBehind_dropSeparatorsAtEnd (key : List Char) :
    lowerBehind [] (dropSeparatorsAtEnd key) = dropSeparatorsAtEnd (lowerBehind [] key) := by
  induction key using List.reverseRecOn with
  | nil => rfl
  | append_singleton front c ih =>
      have single : dropSeparatorsAtEnd [c] = if isSeparator c then [] else [c] :=
        List.rdropWhile_singleton isSeparator c
      cases isSep : isSeparator c with
      | true =>
          have none : dropSeparatorsAtEnd [c] = [] := by rw [single, if_pos isSep]
          rw [lowerBehind_append isSep, dropSeparatorsAtEnd_append, if_pos none, ih]
          exact ((dropSeparatorsAtEnd_append _ _).trans (if_pos none)).symm
      | false =>
          have stays : dropSeparatorsAtEnd [c] = [c] := by simp [single, isSep]
          rw [dropSeparatorsAtEnd_append, stays, if_neg (List.cons_ne_nil c [])]
          refine (dropSeparatorsAtEnd_eq_self fun lowered separator isSeparating ends => ?_).symm
          -- A separator at the end of the lower case is one at the end of the key.
          obtain ⟨start, rest, parts, -, nothing⟩ := lowerBehind_split isSeparating ends
          obtain rfl := eq_nil_of_lowerBehind nothing
          obtain rfl : c = separator := by simpa using (List.append_inj' parts rfl).2
          exact absurd isSeparating (by simp [isSep])

/-- A key that goes on behind a separator where the root ends. -/
def Under (key root : List Char) : Prop :=
  ∃ separator rest, isSeparator separator = true ∧
    key = dropSeparatorsAtEnd root ++ separator :: rest

theorem Under.trans {a b c : List Char} (first : Under a b) (second : Under b c) : Under a c := by
  obtain ⟨separator, rest, isSep, rfl⟩ := second
  obtain ⟨behind, more, isBehind, rfl⟩ := first
  rw [dropSeparatorsAtEnd_append]
  split
  · exact ⟨behind, more, isBehind, by rw [dropSeparatorsAtEnd_idempotent]⟩
  · rename_i some
    have front := prefix_dropSeparatorsAtEnd (separator :: rest)
    rcases List.prefix_cons_iff.mp front with none | ⟨inner, parts, -⟩
    · exact absurd none some
    · exact ⟨separator, inner ++ behind :: more, isSep, by simp [parts]⟩

theorem continues_iff (text start : List Char) :
    continues text start = true ↔
      ∃ separator rest, isSeparator separator = true ∧ text = start ++ separator :: rest := by
  cases ahead : start.isPrefixOf text with
  | false =>
      refine iff_of_false (by simp [continues, ahead]) ?_
      rintro ⟨separator, rest, -, rfl⟩
      have within : start.isPrefixOf (start ++ separator :: rest) = true :=
        List.isPrefixOf_iff_prefix.mpr (List.prefix_append _ _)
      exact absurd within (by simp [ahead])
  | true =>
      obtain ⟨tail, rfl⟩ := List.isPrefixOf_iff_prefix.mp ahead
      cases tail <;> simp [continues, ahead]

theorem toList_lower (text : String) : (lower text).toList = lowerBehind [] text.toList :=
  String.toList_ofList

theorem toList_lower_dropSeparatorsAtEnd (root : String) :
    (lower (String.ofList (dropSeparatorsAtEnd root.toList))).toList =
      dropSeparatorsAtEnd (lower root).toList := by
  rw [toList_lower, toList_lower, String.toList_ofList, lowerBehind_dropSeparatorsAtEnd]

theorem isAtOrUnder_iff_lower (key root : String) :
    isAtOrUnder key root = true ↔
      root ≠ "" ∧ (Text.lower key = Text.lower root ∨
        Under (Text.lower key).toList (Text.lower root).toList) := by
  rw [isAtOrUnder, Bool.and_eq_true, Bool.or_eq_true, sameButCase_iff, continues_iff,
    toList_lower_dropSeparatorsAtEnd]
  simp [Under]

theorem isAtOrUnder_self {key : String} (some : key ≠ "") : isAtOrUnder key key = true :=
  (isAtOrUnder_iff_lower key key).mpr ⟨some, .inl rfl⟩

theorem isAtOrUnder_trans {a b c : String} (first : isAtOrUnder a b = true)
    (second : isAtOrUnder b c = true) : isAtOrUnder a c = true := by
  obtain ⟨-, first⟩ := (isAtOrUnder_iff_lower a b).mp first
  obtain ⟨some, second⟩ := (isAtOrUnder_iff_lower b c).mp second
  refine (isAtOrUnder_iff_lower a c).mpr ⟨some, ?_⟩
  rcases first with same | under
  · rwa [same]
  · rcases second with same | above
    · exact .inr (same ▸ under)
    · exact .inr (under.trans above)

def EndsBare (key : String) : Prop :=
  ∀ last, key.toList.getLast? = some last → isSeparator last = false

theorem EndsBare.dropSeparatorsAtEnd_eq {key : String} (bare : EndsBare key) :
    dropSeparatorsAtEnd key.toList = key.toList :=
  dropSeparatorsAtEnd_eq_self fun front separator isSep ends => by
    have last : key.toList.getLast? = some separator := by rw [ends, List.getLast?_concat]
    exact absurd isSep (by simp [bare separator last])

theorem dropSeparatorsAtEnd_of_all {separators : List Char}
    (all : ∀ c ∈ separators, isSeparator c = true) : dropSeparatorsAtEnd separators = [] :=
  List.rdropWhile_eq_nil_iff.mpr all

theorem EndsBare.dropSeparatorsAtEnd_lower {key : String} (bare : EndsBare key) :
    dropSeparatorsAtEnd (lower key).toList = (lower key).toList := by
  rw [← toList_lower_dropSeparatorsAtEnd, bare.dropSeparatorsAtEnd_eq, String.ofList_toList]

theorem EndsBare.dropSeparatorsAtEnd_lower_append {root separators : String} (bare : EndsBare root)
    (all : ∀ c ∈ separators.toList, isSeparator c = true) :
    dropSeparatorsAtEnd (lower (root ++ separators)).toList = (lower root).toList := by
  rw [← toList_lower_dropSeparatorsAtEnd, String.toList_append, dropSeparatorsAtEnd_append,
    if_pos (dropSeparatorsAtEnd_of_all all), bare.dropSeparatorsAtEnd_eq, String.ofList_toList]

theorem EndsBare.not_under_self {root : String} (bare : EndsBare root) :
    ¬Under (lower root).toList (lower root).toList := by
  rintro ⟨separator, rest, -, longer⟩
  rw [bare.dropSeparatorsAtEnd_lower] at longer
  exact absurd (List.append_right_eq_self.mp longer.symm) (List.cons_ne_nil separator rest)

theorem EndsBare.append_under {root separators : String} (bare : EndsBare root)
    (some : separators ≠ "") (all : ∀ c ∈ separators.toList, isSeparator c = true) :
    Under (lower (root ++ separators)).toList (lower root).toList := by
  have nonempty : separators.toList ≠ [] := fun none => some (String.toList_eq_nil_iff.mp none)
  obtain ⟨separator, rest, parts⟩ := List.exists_cons_of_ne_nil nonempty
  have isSep : isSeparator separator = true := all separator (by simp [parts])
  refine ⟨separator, lowerBehind [] rest, isSep, ?_⟩
  rw [bare.dropSeparatorsAtEnd_lower, toList_lower, toList_lower, String.toList_append, parts,
    lowerBehind_append isSep]

theorem isAtOrUnder_append {root separators : String} (bare : EndsBare root) (named : root ≠ "")
    (some : separators ≠ "") (all : ∀ c ∈ separators.toList, isSeparator c = true) (key : String) :
    isAtOrUnder key (root ++ separators) = true ↔
      isAtOrUnder key root = true ∧ same key root = false := by
  have under : Under (lower key).toList (lower (root ++ separators)).toList ↔
      Under (lower key).toList (lower root).toList := by
    rw [Under, Under, bare.dropSeparatorsAtEnd_lower_append all, bare.dropSeparatorsAtEnd_lower]
  have longer : root ++ separators ≠ "" := by simp [named]
  have apart : same key root = false ↔ lower key ≠ lower root := by
    rw [← Bool.not_eq_true]
    exact not_congr (sameButCase_iff key root)
  rw [isAtOrUnder_iff_lower, isAtOrUnder_iff_lower, under, apart]
  constructor
  · rintro ⟨-, within⟩
    have below : Under (lower key).toList (lower root).toList := by
      rcases within with same | below
      · rw [same]
        exact bare.append_under some all
      · exact below
    refine ⟨⟨named, .inr below⟩, fun same => ?_⟩
    rw [same] at below
    exact bare.not_under_self below
  · rintro ⟨⟨-, same | below⟩, different⟩
    · exact absurd same different
    · exact ⟨longer, .inr below⟩

/-- A key is at or under a root exactly when it is the root but for case, or the root without its
separators at the end, but for case, followed by a separator and anything. -/
theorem isAtOrUnder_iff (key root : String) :
    isAtOrUnder key root = true ↔
      root ≠ "" ∧ (Text.lower key = Text.lower root ∨
        ∃ (start : String) (separator : Char) (rest : String),
          (separator = '\\' ∨ separator = '/') ∧
          key = start ++ String.singleton separator ++ rest ∧
          Text.lower start = Text.lower (String.ofList (root.toList.rdropWhile isSeparator))) := by
  rw [isAtOrUnder_iff_lower, rdropWhile_isSeparator]
  refine and_congr_right fun _ => or_congr_right ⟨?_, ?_⟩
  · rintro ⟨separator, rest, isSep, parts⟩
    rw [toList_lower] at parts
    obtain ⟨start, behind, whole, front, -⟩ := lowerBehind_split isSep parts
    refine ⟨String.ofList start, separator, String.ofList behind, isSeparator_iff.mp isSep, ?_, ?_⟩
    · exact String.toList_injective (by simp [whole])
    · refine String.toList_injective ?_
      rw [toList_lower_dropSeparatorsAtEnd, toList_lower, String.toList_ofList, front]
  · rintro ⟨start, separator, rest, which, rfl, same⟩
    have isSep := isSeparator_iff.mpr which
    refine ⟨separator, lowerBehind [] rest.toList, isSep, ?_⟩
    rw [← toList_lower_dropSeparatorsAtEnd, ← same, toList_lower, toList_lower,
      ← lowerBehind_append isSep]
    simp

/-- A sigma is final before a separator, as it is at the end of the root. -/
example : isAtOrUnder "ΟΔΟΣ/Α" "οδος\\" = true ∧ isAtOrUnder "ΟΔΟΣΑ/Α" "οδος\\" = false := by
  decide +kernel

end Waymark.Key
