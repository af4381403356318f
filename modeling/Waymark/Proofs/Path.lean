import Waymark.Layout
/-!
# File names

What is written behind the last slash of a path is its file name, however the way to it is written.
-/

namespace Waymark

namespace Path

variable {name : List Char}

theorem split_ne_nil (text : List Char) : split text ≠ [] := by
  cases text with
  | nil => exact List.cons_ne_nil _ _
  | cons c rest =>
      unfold split
      split
      · exact List.cons_ne_nil _ _
      · split <;> exact List.cons_ne_nil _ _

theorem split_of_notMem (noSlash : '/' ∉ name) : split name = [name] := by
  induction name with
  | nil => rfl
  | cons c rest ih =>
      simp only [List.mem_cons, not_or] at noSlash
      rw [split, ih noSlash.2]
      exact if_neg (Ne.symm noSlash.1)

theorem split_append (noSlash : '/' ∉ name) (before : List Char) :
    split (before ++ '/' :: name) = split before ++ [name] := by
  induction before with
  | nil => simp [split, split_of_notMem noSlash]
  | cons c rest ih =>
      rw [List.cons_append, split, ih, split]
      cases parts : split rest with
      | nil => exact absurd parts (split_ne_nil rest)
      | cons part parts =>
          simp only [List.cons_append]
          split <;> rfl

theorem head_append (text : List Char) : (head text).1 ++ (head text).2 = text := by
  unfold head
  split <;> rfl

theorem head_append_slash {text : List Char} (nonempty : text ≠ []) (more : List Char) :
    head (text ++ '/' :: more) = ((head text).1, (head text).2 ++ '/' :: more) := by
  fun_cases head text with
  | case1 | case2 | case3 => rfl
  | case4 =>
      obtain ⟨first, rest, rfl⟩ := List.exists_cons_of_ne_nil nonempty
      rw [head] <;> cases rest <;> simp_all

theorem head_of_notMem (noSlash : '/' ∉ name) (part : isPart name) : head name = ([], name) := by
  unfold head
  split
  · exact absurd List.mem_cons_self noSlash
  · cases part
  · exact absurd (List.mem_cons_of_mem _ List.mem_cons_self) noSlash
  · rfl

theorem append_ne {ending short : String} (few : short.length < ending.length) (name : String) :
    name ++ ending ≠ short := by
  rintro rfl
  rw [String.length_append] at few
  omega

theorem isPart_toList {name : String} : isPart name.toList = true ↔ name ≠ "" ∧ name ≠ "." := by
  have dot : name.toList = ['.'] ↔ name = "." := @String.toList_inj name "."
  simp [isPart, dot]

theorem child_cases {name : String} (noSlash : '/' ∉ name.toList) (path : Path) :
    (path.child name).text.toList = name.toList ∨
      ∃ before, (path.child name).text.toList = before ++ '/' :: name.toList := by
  have relative : (Path.mk name).isAbsolute = false :=
    decide_eq_false fun slash => noSlash (List.mem_of_mem_head? slash)
  unfold child join
  split
  · exact .inl rfl
  split
  · rename_i slash
    obtain ⟨before, whole⟩ := List.getLast?_eq_some_iff.mp slash
    exact .inr ⟨before, by simp [String.toList_append, whole]⟩
  · exact .inr ⟨path.text.toList, by simp [String.toList_append]⟩

theorem split_body_child {name : String} (noSlash : '/' ∉ name.toList)
    (part : isPart name.toList) (path : Path) :
    ∃ before, split (head (path.child name).text.toList).2 = before ++ [name.toList] := by
  rcases child_cases noSlash path with alone | ⟨before, behind⟩
  · exact ⟨[], by rw [alone, head_of_notMem noSlash part, split_of_notMem noSlash]; rfl⟩
  rw [behind]
  by_cases nonempty : before = []
  · exact ⟨[], by rw [nonempty, List.nil_append, head, split_of_notMem noSlash]; rfl⟩
  · exact ⟨_, by rw [head_append_slash nonempty, split_append noSlash]⟩

theorem lastParts_of_split {body last : List Char} {before : List (List Char)}
    (whole : split body = before ++ [last]) (part : isPart last) :
    lastParts body = last :: before.reverse := by
  simp [lastParts, whole, part]

theorem fileName?_child {name : String} (noSlash : '/' ∉ name.toList) (part : isPart name.toList)
    (notUp : name.toList ≠ ['.', '.']) (path : Path) : (path.child name).fileName? = some name := by
  obtain ⟨before, whole⟩ := split_body_child noSlash part path
  simp [fileName?, lastParts_of_split whole part, notUp]

def lastName? (path : Path) : Option String :=
  (((split path.text.toList).filter fun part => !part.isEmpty).map String.ofList).getLast?

theorem lastName?_of_split {path : Path} {parts : List (List Char)} {last : List Char}
    (nonempty : last ≠ []) (whole : split path.text.toList = parts ++ [last]) :
    path.lastName? = some (String.ofList last) := by
  simp [lastName?, whole, nonempty]

theorem lastName?_child {name : String} (noSlash : '/' ∉ name.toList) (nonempty : name.toList ≠ [])
    (path : Path) : (path.child name).lastName? = some name := by
  have last : ∃ parts, split (path.child name).text.toList = parts ++ [name.toList] := by
    rcases child_cases noSlash path with alone | ⟨before, behind⟩
    · exact ⟨[], by rw [alone, split_of_notMem noSlash]; rfl⟩
    · exact ⟨split before, by rw [behind, split_append noSlash]⟩
  obtain ⟨parts, whole⟩ := last
  rw [lastName?_of_split nonempty whole, String.ofList_toList]

theorem split_of_suffix {ending : List Char} (noSlash : '/' ∉ ending) (before : List Char) :
    ∃ parts last, split (before ++ ending) = parts ++ [last] ∧ ending <:+ last := by
  induction before with
  | nil => exact ⟨[], ending, split_of_notMem noSlash, List.suffix_refl _⟩
  | cons c rest ih =>
      obtain ⟨parts, last, whole, ends⟩ := ih
      rw [List.cons_append, split, whole]
      cases parts with
      | nil =>
          by_cases slash : c = '/'
          · exact ⟨[[]], last, by simp [slash], ends⟩
          · exact ⟨[], c :: last, by simp [slash], ends.trans (List.suffix_cons _ _)⟩
      | cons part parts =>
          by_cases slash : c = '/'
          · exact ⟨[] :: part :: parts, last, by simp [slash], ends⟩
          · exact ⟨(c :: part) :: parts, last, by simp [slash], ends⟩

theorem lastName?_of_suffix {path : Path} {ending : List Char} (nonempty : ending ≠ [])
    (noSlash : '/' ∉ ending) (ends : ending <:+ path.text.toList) :
    ∃ name, path.lastName? = some name ∧ ending <:+ name.toList := by
  obtain ⟨before, whole⟩ := ends
  obtain ⟨parts, last, split, ends⟩ := split_of_suffix noSlash before
  have some : last ≠ [] := fun none => nonempty (List.suffix_nil.mp (none ▸ ends))
  exact ⟨_, lastName?_of_split some (whole ▸ split), by rwa [String.toList_ofList]⟩

theorem suffix_child (path : Path) (name : String) :
    name.toList <:+ (path.child name).text.toList := by
  unfold child join
  split
  · exact List.suffix_refl _
  split
  · exact String.toList_append ▸ List.suffix_append _ _
  · exact String.toList_append ▸ List.suffix_append _ _

end Path

namespace Layout

theorem fileName?_settings (layout : Layout) :
    layout.settings.fileName? = some "globalSettings.json" :=
  Path.fileName?_child (by decide) rfl (by decide) layout.directory

theorem fileName?_history (layout : Layout) :
    layout.history.fileName? = some "globalHistory.json" :=
  Path.fileName?_child (by decide) rfl (by decide) layout.directory

theorem lastName?_history (layout : Layout) :
    layout.history.lastName? = some "globalHistory.json" :=
  Path.lastName?_child (by decide) (by decide) layout.directory

end Layout

end Waymark
