import Waymark.Proofs.Path
/-!
# Parents

A path leads through its parent: the names of the parent come first, and what is left ends in the
file name, with dots around it.
-/

namespace Waymark.Path

def namesOf (parts : List (List Char)) : List String :=
  (parts.filter fun part => !part.isEmpty).map String.ofList

def names (path : Path) : List String :=
  namesOf (split path.text.toList)

theorem notMem_of_mem_split {text part : List Char} (inside : part ∈ split text) : '/' ∉ part := by
  induction text generalizing part with
  | nil =>
      simp only [split, List.mem_singleton] at inside
      simp [inside]
  | cons c rest ih =>
      unfold split at inside
      cases parts : split rest with
      | nil => exact absurd parts (split_ne_nil rest)
      | cons first others =>
          rw [parts] at ih inside
          simp only at inside
          split at inside
          · rcases List.mem_cons.mp inside with rfl | later
            · simp
            · exact ih later
          · rename_i other
            rcases List.mem_cons.mp inside with rfl | later
            · simp [Ne.symm other, ih List.mem_cons_self]
            · exact ih (List.mem_cons_of_mem _ later)

theorem split_slash (text : List Char) : split ('/' :: text) = [] :: split text := by
  cases parts : split text with
  | nil => exact absurd parts (split_ne_nil text)
  | cons first others => simp [split, parts]

theorem split_append_slash {part : List Char} (noSlash : '/' ∉ part) (text : List Char) :
    split (part ++ '/' :: text) = part :: split text := by
  induction part with
  | nil => exact split_slash text
  | cons c rest ih =>
      simp only [List.mem_cons, not_or] at noSlash
      rw [List.cons_append, split, ih noSlash.2]
      exact if_neg (Ne.symm noSlash.1)

theorem split_unsplit {parts : List (List Char)} (nonempty : parts ≠ [])
    (noSlash : ∀ part ∈ parts, '/' ∉ part) : split (unsplit parts) = parts := by
  induction parts with
  | nil => exact absurd rfl nonempty
  | cons part rest ih =>
      obtain ⟨here, later⟩ := List.forall_mem_cons.mp noSlash
      cases rest with
      | nil => simpa [unsplit] using split_of_notMem here
      | cons next others =>
          have whole : unsplit (part :: next :: others) =
              part ++ '/' :: unsplit (next :: others) := by
            simp [unsplit, List.intercalate]
          rw [whole, split_append_slash here, ih (List.cons_ne_nil _ _) later]

theorem unsplit_split (text : List Char) : unsplit (split text) = text := by
  induction text with
  | nil => rfl
  | cons c rest ih =>
      obtain ⟨part, parts, whole⟩ := List.exists_cons_of_ne_nil (split_ne_nil rest)
      rw [whole] at ih
      rw [split, whole]
      dsimp only
      split
      · rename_i slash
        simp [unsplit, List.intercalate, slash, ← ih]
      · cases parts <;> simpa [unsplit, List.intercalate] using ih

theorem namesOf_unsplit {parts : List (List Char)} (noSlash : ∀ part ∈ parts, '/' ∉ part) :
    namesOf (split (unsplit parts)) = namesOf parts := by
  cases parts with
  | nil => rfl
  | cons part rest => rw [split_unsplit (List.cons_ne_nil _ _) noSlash]

theorem eq_dot_of_not_isPart {part : List Char} (notPart : isPart part = false)
    (nonempty : part ≠ []) : part = ['.'] := by
  simpa [isPart, nonempty] using notPart

theorem dots_of_not_isPart {parts : List (List Char)}
    (notParts : ∀ part ∈ parts, isPart part = false) : ∀ name ∈ namesOf parts, name = "." := by
  intro name inside
  obtain ⟨part, kept, rfl⟩ := List.mem_map.mp inside
  obtain ⟨inside, nonempty⟩ := List.mem_filter.mp kept
  rw [eq_dot_of_not_isPart (notParts part inside) (by simpa using nonempty)]

theorem trimmed (parts : List (List Char)) :
    ∃ dots, parts = (parts.reverse.dropWhile (!isPart ·)).reverse ++ dots ∧
      ∀ part ∈ dots, isPart part = false := by
  refine ⟨(parts.reverse.takeWhile (!isPart ·)).reverse, ?_, fun part inside => ?_⟩
  · rw [← List.reverse_append, List.takeWhile_append_dropWhile, List.reverse_reverse]
  · have all := List.all_takeWhile (l := parts.reverse) (p := (!isPart ·))
    simpa using List.all_eq_true.mp all part (List.mem_reverse.mp inside)

theorem split_of_lastParts {body last : List Char} {parts : List (List Char)}
    (whole : lastParts body = last :: parts) :
    isPart last ∧ ∃ before after,
      split body = (parts.dropWhile (!isPart ·)).reverse ++ before ++ last :: after ∧
      (∀ part ∈ before, isPart part = false) ∧ ∀ part ∈ after, isPart part = false := by
  have part : isPart last := by
    have first := List.head?_dropWhile_not (!isPart ·) (split body).reverse
    rw [← lastParts, whole] at first
    simpa using first
  obtain ⟨after, same, behind⟩ := trimmed (split body)
  obtain ⟨before, kept, between⟩ := trimmed parts.reverse
  rw [← lastParts, whole, List.reverse_cons, kept, List.reverse_reverse] at same
  exact ⟨part, before, after, by rw [same]; simp, between, behind⟩

theorem head_cases (text : List Char) :
    (∃ body, text = '/' :: body ∧ head text = (['/'], body)) ∨
    (∃ body, text = '.' :: body ∧ head text = (['.'], body) ∧
      (body = [] ∨ ∃ rest, body = '/' :: rest)) ∨
    (head text = ([], text) ∧ text.head? ≠ some '/') := by
  unfold head
  split
  · exact .inl ⟨_, rfl, rfl⟩
  · exact .inr (.inl ⟨_, rfl, rfl, .inl rfl⟩)
  · exact .inr (.inl ⟨_, rfl, rfl, .inr ⟨_, rfl⟩⟩)
  · rename_i noSlash _ _
    refine .inr (.inr ⟨rfl, fun slash => ?_⟩)
    obtain ⟨rest, same⟩ := List.head?_eq_some_iff.mp slash
    exact noSlash rest same

theorem unsplit_cons_nil (parts : List (List Char)) :
    unsplit ([] :: parts) = [] ∨ ∃ rest, unsplit ([] :: parts) = '/' :: rest := by
  cases parts with
  | nil => exact .inl rfl
  | cons part others => exact .inr ⟨_, by simp [unsplit, List.intercalate]; rfl⟩

theorem namesOf_dot {body : List Char} (alone : body = [] ∨ ∃ rest, body = '/' :: rest) :
    namesOf (split ('.' :: body)) = "." :: namesOf (split body) := by
  rcases alone with rfl | ⟨rest, rfl⟩
  · rfl
  · have dot : split (['.'] ++ '/' :: rest) = ['.'] :: split rest :=
      split_append_slash (by decide) rest
    rw [← List.singleton_append, dot, split_slash]
    rfl

theorem isAbsolute_ofList (text : List Char) :
    isAbsolute ⟨String.ofList text⟩ = decide (text.head? = some '/') := by
  simp [isAbsolute]

theorem parent?_of_lastParts {path : Path} {last : List Char} {parts : List (List Char)}
    (whole : lastParts (head path.text.toList).2 = last :: parts) :
    path.parent? = some ⟨String.ofList ((head path.text.toList).1 ++
      unsplit (parts.dropWhile (!isPart ·)).reverse)⟩ := by
  unfold parent?
  generalize head path.text.toList = halves at whole ⊢
  obtain ⟨start, body⟩ := halves
  simp [whole]

theorem head?_unsplit {text : List Char} (noSlash : text.head? ≠ some '/')
    {parts more : List (List Char)} (whole : split text = parts ++ more) (left : more ≠ []) :
    (unsplit parts).head? ≠ some '/' := by
  cases parts with
  | nil => simp [unsplit]
  | cons part others =>
      cases text with
      | nil =>
          have none : others ++ more = [] := (List.cons.inj whole).2.symm
          exact absurd (List.append_eq_nil_iff.mp none).2 left
      | cons c rest =>
          have other : c ≠ '/' := by simpa using noSlash
          obtain ⟨first, later, same⟩ := List.exists_cons_of_ne_nil (split_ne_nil rest)
          rw [split, same] at whole
          simp only [if_neg other, List.cons_append, List.cons.injEq] at whole
          rw [← whole.1]
          cases others <;> simpa [unsplit, List.intercalate] using other

/-- A path leads through its parent, and through its last part at the end. -/
theorem names_of_lastParts {path : Path} {last : List Char} {parts : List (List Char)}
    (whole : lastParts (head path.text.toList).2 = last :: parts) :
    ∃ parent before after, path.parent? = some parent ∧ parent.isAbsolute = path.isAbsolute ∧
      path.names = parent.names ++ before ++ String.ofList last :: after ∧ isPart last ∧
      (∀ name ∈ before, name = ".") ∧ ∀ name ∈ after, name = "." := by
  obtain ⟨part, before, after, body, between, behind⟩ := split_of_lastParts whole
  have nonempty : last ≠ [] := by
    rintro rfl
    cases part
  have above := parent?_of_lastParts whole
  generalize (parts.dropWhile (!isPart ·)).reverse = q at above body
  have noSlash : ∀ part ∈ q, '/' ∉ part := fun part here =>
    notMem_of_mem_split (body ▸ List.mem_append_left _ (List.mem_append_left _ here))
  have inside : namesOf (split (head path.text.toList).2) =
      namesOf q ++ namesOf before ++ String.ofList last :: namesOf after := by
    simp [body, namesOf, nonempty]
  obtain ⟨text⟩ := path
  suffices isAbsolute ⟨String.ofList ((head text.toList).1 ++ unsplit q)⟩ = isAbsolute ⟨text⟩ ∧
      ∃ start, namesOf (split text.toList) = start ++ namesOf (split (head text.toList).2) ∧
      namesOf (split ((head text.toList).1 ++ unsplit q)) = start ++ namesOf q by
    obtain ⟨absolute, start, all, parent⟩ := this
    refine ⟨_, namesOf before, namesOf after, above, absolute, ?_, part,
      dots_of_not_isPart between, dots_of_not_isPart behind⟩
    change namesOf (split text.toList) =
      namesOf (split (String.ofList ((head text.toList).1 ++ unsplit q)).toList) ++ _ ++ _
    rw [all, inside, String.toList_ofList, parent]
    simp
  rw [isAbsolute_ofList]
  rcases head_cases text.toList with
    ⟨rest, same, halves⟩ | ⟨rest, same, halves, alone⟩ | ⟨halves, relative⟩
  · rw [halves] at body ⊢
    refine ⟨by simp [isAbsolute, same], [], by simp [same, split_slash, namesOf], ?_⟩
    simpa [split_slash, namesOf] using namesOf_unsplit noSlash
  · rw [halves] at body ⊢
    refine ⟨by simp [isAbsolute, same], ["."], by simp [same, namesOf_dot alone], ?_⟩
    have alone : unsplit q = [] ∨ ∃ rest, unsplit q = '/' :: rest := by
      cases q with
      | nil => exact .inl rfl
      | cons first others =>
          have none : first = [] := by
            rcases alone with rfl | ⟨rest, rfl⟩
            · exact (List.cons.inj body).1.symm
            · rw [split_slash] at body
              exact (List.cons.inj body).1.symm
          exact none ▸ unsplit_cons_nil others
    simp [namesOf_dot alone, namesOf_unsplit noSlash]
  · rw [halves] at body ⊢
    refine ⟨?_, [], rfl, by simp [namesOf_unsplit noSlash]⟩
    have other := head?_unsplit relative (body.trans (List.append_assoc _ _ _)) (by simp)
    simp [isAbsolute, relative, other]

theorem names_of_parent {path parent : Path} (above : path.parent? = some parent) :
    parent.isAbsolute = path.isAbsolute ∧
      ∃ rest, rest ≠ [] ∧ path.names = parent.names ++ rest := by
  cases whole : lastParts (head path.text.toList).2 with
  | cons last parts =>
      obtain ⟨parent', before, after, above', absolute, names, -⟩ := names_of_lastParts whole
      cases Option.some.inj (above'.symm.trans above)
      refine ⟨absolute, before ++ String.ofList last :: after, by simp, ?_⟩
      rw [names, List.append_assoc]
  | nil =>
      rcases head_cases path.text.toList with
        ⟨rest, -, halves⟩ | ⟨rest, same, halves, alone⟩ | ⟨halves, -⟩
      all_goals
        rw [halves] at whole
        dsimp only at whole
      · simp [parent?, halves, whole] at above
      · -- The path is a dot, and its parent is empty.
        simp only [parent?, halves, whole, if_true, Option.some.injEq] at above
        subst above
        refine ⟨by simp [isAbsolute, same], path.names, ?_, rfl⟩
        simp [names, same, namesOf_dot alone]
      · simp [parent?, halves, whole] at above

theorem names_of_fileName {path : Path} {name : String} (named : path.fileName? = some name) :
    ∃ parent before after, path.parent? = some parent ∧ parent.isAbsolute = path.isAbsolute ∧
      path.names = parent.names ++ before ++ name :: after ∧ name ≠ "." ∧ name ≠ ".." ∧
      (∀ name ∈ before, name = ".") ∧ ∀ name ∈ after, name = "." := by
  unfold fileName? at named
  cases whole : lastParts (head path.text.toList).2 with
  | nil => simp [whole] at named
  | cons last parts =>
      rw [whole] at named
      simp only [Option.ite_none_left_eq_some, Option.some.injEq] at named
      obtain ⟨notUp, rfl⟩ := named
      obtain ⟨parent, before, after, above, absolute, names, part, dots⟩ := names_of_lastParts whole
      refine ⟨parent, before, after, above, absolute, names, ?_, ?_, dots⟩
      · intro dot
        have same : last = ['.'] := String.ofList_injective dot
        simp [same, isPart] at part
      · intro up
        exact notUp (String.ofList_injective up)

theorem names_child {name : String} (noSlash : '/' ∉ name.toList) (nonempty : name.toList ≠ [])
    (path : Path) : (path.child name).names = path.names ++ [name] ∧
      (path.child name).isAbsolute = path.isAbsolute := by
  have relative : (Path.mk name).isAbsolute = false :=
    decide_eq_false fun slash => noSlash (List.mem_of_mem_head? slash)
  have behind (before : List Char) :
      namesOf (split (before ++ '/' :: name.toList)) = namesOf (split before) ++ [name] := by
    simp [split_append noSlash, namesOf, nonempty]
  unfold child join
  split
  · rename_i either
    have empty : path.text = "" := by simpa [relative] using either
    have alone : path = ⟨""⟩ := congrArg Path.mk empty
    subst alone
    refine ⟨?_, relative⟩
    simp [names, split_of_notMem noSlash, namesOf, nonempty, split]
  split
  · rename_i slash
    obtain ⟨before, whole⟩ := List.getLast?_eq_some_iff.mp slash
    refine ⟨?_, ?_⟩
    · simp only [names, String.toList_append, whole, List.append_assoc, List.singleton_append,
        behind]
      have none := @split_append [] (by simp) before
      simp [none, namesOf]
    · cases before <;> simp [isAbsolute, String.toList_append, whole]
  · rename_i either _
    have nonempty : path.text.toList ≠ [] := by simpa [relative] using either
    obtain ⟨first, rest, same⟩ := List.exists_cons_of_ne_nil nonempty
    refine ⟨?_, ?_⟩
    · simp [names, String.toList_append, behind]
    · simp [isAbsolute, String.toList_append, same]

theorem slash_notMem_fileName {path : Path} {name : String} (named : path.fileName? = some name) :
    '/' ∉ name.toList := by
  unfold fileName? at named
  cases whole : lastParts (head path.text.toList).2 with
  | nil => simp [whole] at named
  | cons last parts =>
      obtain ⟨-, before, after, body, -⟩ := split_of_lastParts whole
      rw [whole] at named
      simp only [Option.ite_none_left_eq_some, Option.some.injEq] at named
      rw [← named.2, String.toList_ofList]
      exact notMem_of_mem_split (body ▸ List.mem_append_right _ List.mem_cons_self)

theorem splitName_sublist (name : String) : (splitName name).1.toList.Sublist name.toList := by
  unfold splitName
  dsimp only
  split
  · exact .refl _
  · exact .refl _
  · rename_i dot before _ kept
    rw [String.toList_ofList, ← List.reverse_reverse name.toList]
    have suffix : dot :: before <:+ name.toList.reverse := kept ▸ List.dropWhile_suffix _
    exact ((List.sublist_cons_self dot before).trans suffix.sublist).reverse

theorem slash_notMem_stem {path : Path} {stem : String} (named : path.stem? = some stem) :
    '/' ∉ stem.toList := by
  obtain ⟨name, file, rfl⟩ := Option.map_eq_some_iff.mp named
  exact fun inside => slash_notMem_fileName file ((splitName_sublist name).subset inside)

theorem text_child {path : Path} {name : String} (noSlash : '/' ∉ name.toList)
    (nonempty : path.text ≠ "") : ∃ more, (path.child name).text = path.text ++ more := by
  have relative : (Path.mk name).isAbsolute = false :=
    decide_eq_false fun slash => noSlash (List.mem_of_mem_head? slash)
  have within : ((Path.mk name).isAbsolute || path.text.isEmpty) = false := by
    simp [relative, nonempty]
  unfold child join
  rw [within, if_neg Bool.false_ne_true]
  split
  · exact ⟨name, rfl⟩
  · exact ⟨"/" ++ name, by rw [String.append_assoc]⟩

theorem getLast?_of_part {text last : List Char} {before : List (List Char)} (part : isPart last)
    (ends : split (head text).2 = before ++ [last]) : text ≠ [] ∧ text.getLast? ≠ some '/' := by
  have nonempty : (split (head text).2).getLast? ≠ some [] := by
    rw [ends, List.getLast?_concat, Ne, Option.some_inj]
    rintro rfl
    cases part
  refine ⟨?_, fun slash => nonempty ?_⟩
  · rintro rfl
    exact nonempty rfl
  · obtain ⟨front, rfl⟩ := List.getLast?_eq_some_iff.mp slash
    by_cases alone : front = []
    · rw [alone]
      rfl
    · rw [head_append_slash alone, split_append (by simp), List.getLast?_concat]

theorem parent?_child {path : Path} {name : String} (noSlash : '/' ∉ name.toList)
    (part : isPart name.toList) {before : List (List Char)} {last : List Char}
    (lastPart : isPart last) (ends : split (head path.text.toList).2 = before ++ [last]) :
    (path.child name).parent? = some path := by
  obtain ⟨nonempty, noSlashAtEnd⟩ := getLast?_of_part lastPart ends
  have behind : (path.child name).text.toList = path.text.toList ++ '/' :: name.toList := by
    have relative : (Path.mk name).isAbsolute = false :=
      decide_eq_false fun slash => noSlash (List.mem_of_mem_head? slash)
    have within : path.text.isEmpty = false := by simpa using nonempty
    simp [child, join, relative, within, noSlashAtEnd]
  have halves := head_append_slash nonempty name.toList
  rw [← behind] at halves
  have parts : lastParts (head (path.child name).text.toList).2 =
      name.toList :: (before ++ [last]).reverse := by
    rw [halves]
    exact lastParts_of_split (by rw [split_append noSlash, ends]) part
  have kept : ((before ++ [last]).reverse.dropWhile (!isPart ·)).reverse = before ++ [last] := by
    simp [lastPart]
  rw [parent?_of_lastParts parts, halves, kept, ← ends, unsplit_split, head_append,
    String.ofList_toList]

end Waymark.Path
