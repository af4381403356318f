import Waymark.Backup
import Waymark.Proofs.Calendar.Written
import Waymark.Proofs.Path
/-!
# Names of backups

Neither the date of a backup nor its tick has a dot in it. So the date reads back from the name,
whatever the tick and the document are, and backups with different ticks have different names.
-/

namespace Waymark

open Text

/-- Text that cannot be taken for several parts of a name or of a path. -/
def Unbroken (text : List Char) : Prop :=
  ∀ c ∈ text, c ≠ '.' ∧ c ≠ '/'

theorem unbroken_of_isDigit {text : List Char} (digits : ∀ c ∈ text, c.isDigit = true) :
    Unbroken text := by
  intro c inside
  have digit := digits c inside
  constructor
  · rintro rfl
    cases digit
  · rintro rfl
    cases digit

theorem Unbroken.append {first second : List Char} (left : Unbroken first)
    (right : Unbroken second) : Unbroken (first ++ second) :=
  fun c inside => (List.mem_append.mp inside).elim (left c) (right c)

theorem Unbroken.cons {text : List Char} {c : Char} (dot : c ≠ '.') (slash : c ≠ '/')
    (unbroken : Unbroken text) : Unbroken (c :: text) :=
  List.forall_mem_cons.mpr ⟨⟨dot, slash⟩, unbroken⟩

theorem unbroken_padded (width value : Nat) : Unbroken (padded width value) :=
  unbroken_of_isDigit fun _ => isDigit_of_mem_padded

namespace Date

theorem unbroken_yearText (year : Int) : Unbroken (yearText year) := by
  unfold yearText
  split
  · exact unbroken_padded 4 _
  · split
    · exact .cons (by decide) (by decide) (unbroken_padded 4 _)
    · exact .cons (by decide) (by decide) (unbroken_padded 4 _)

theorem unbroken_underscored (date : Date) : Unbroken date.underscored :=
  ((unbroken_yearText date.year).append
    (.cons (by decide) (by decide) (unbroken_padded 2 date.month))).append
      (.cons (by decide) (by decide) (unbroken_padded 2 date.day))

theorem ofUnderscored?_underscored {date : Date} (valid : date.Valid) :
    ofUnderscored? date.underscored = some date := by
  obtain ⟨-, -, -, month, -, day⟩ := id valid
  have short := monthLength_le date.year date.month
  have underscore : ∀ c ∈ ('_' :: (padded 2 date.month ++ '_' :: padded 2 date.day)).head?,
      c.isDigit = false := by
    rintro c ⟨⟩
    decide
  have known : of? date.year date.month date.day = some date := if_pos valid
  have takesYear := Scan.run_year_yearText date.year underscore
  have takesMonth := Scan.run_number 2 date.month (by decide) (by omega)
  have takesDay := Scan.run_number 2 date.day (by decide) (by omega) []
  rw [List.append_nil] at takesDay
  have ended : Scan.atEnd.run [] = some ((), []) := rfl
  simp only [ofUnderscored?, scanUnderscored, underscored, List.append_assoc,
    List.cons_append, StateT.run_bind, takesYear, takesMonth, takesDay,
    Scan.run_literal, ended, Option.bind_eq_bind, Option.bind_some, known]
  rfl

end Date

theorem toList_toString_ofNat (value : Nat) :
    (toString (Int.ofNat value)).toList = Nat.toDigits 10 value := by
  simp [toString, Int.repr, Nat.repr]

theorem toList_toString_negSucc (value : Nat) :
    (toString (Int.negSucc value)).toList = '-' :: Nat.toDigits 10 (value + 1) := by
  simp [toString, Int.repr, Nat.repr]

theorem unbroken_toString (tick : Int) : Unbroken (toString tick).toList := by
  cases tick with
  | ofNat value =>
      rw [toList_toString_ofNat]
      exact unbroken_of_isDigit fun _ => isDigit_of_mem_toDigits
  | negSucc value =>
      rw [toList_toString_negSucc]
      exact .cons (by decide) (by decide) (unbroken_of_isDigit fun _ => isDigit_of_mem_toDigits)

theorem minus_notMem_toDigits (value : Nat) : '-' ∉ Nat.toDigits 10 value := by
  intro inside
  cases isDigit_of_mem_toDigits inside

theorem toString_injective : Function.Injective fun tick : Int => toString tick := by
  intro first second same
  have same : (toString first).toList = (toString second).toList := congrArg String.toList same
  cases first with
  | ofNat value =>
      rw [toList_toString_ofNat] at same
      cases second with
      | ofNat other =>
          rw [toList_toString_ofNat] at same
          have equal := congrArg digitsValue same
          rw [digitsValue_toDigits, digitsValue_toDigits] at equal
          rw [equal]
      | negSucc other =>
          rw [toList_toString_negSucc] at same
          exact absurd (same ▸ List.mem_cons_self) (minus_notMem_toDigits value)
  | negSucc value =>
      rw [toList_toString_negSucc] at same
      cases second with
      | ofNat other =>
          rw [toList_toString_ofNat] at same
          exact absurd (same ▸ List.mem_cons_self) (minus_notMem_toDigits other)
      | negSucc other =>
          rw [toList_toString_negSucc] at same
          have equal := congrArg digitsValue (List.cons.inj same).2
          rw [digitsValue_toDigits, digitsValue_toDigits] at equal
          rw [Nat.succ.inj equal]

namespace Backup

theorem toList_name (date : Date) (tick : Int) (stem : String) :
    (name date tick stem).toList =
      date.underscored ++
        '.' :: ((toString tick).toList ++ '.' :: (stem.toList ++ ".json".toList)) := by
  simp [name, String.toList_append]

theorem slash_notMem_name {stem : String} (noSlash : '/' ∉ stem.toList) (date : Date) (tick : Int) :
    '/' ∉ (name date tick stem).toList := by
  have inDate : '/' ∉ date.underscored := fun inside => (date.unbroken_underscored _ inside).2 rfl
  have inTick : '/' ∉ (toString tick).toList := fun inside =>
    (unbroken_toString tick _ inside).2 rfl
  have ending : '/' ∉ ".json".toList := by decide
  rw [toList_name]
  simp only [List.mem_append, List.mem_cons, inDate, inTick, noSlash, ending, or_false, false_or]
  decide

theorem takeWhile_unbroken {text : List Char} (unbroken : Unbroken text) (behind : List Char) :
    (text ++ '.' :: behind).takeWhile (· ≠ '.') = text := by
  rw [List.takeWhile_append_of_pos fun c inside => by simpa using (unbroken c inside).1]
  simp

theorem unbroken_append_inj {first second left right : List Char} (unbroken : Unbroken first)
    (unbroken' : Unbroken second) (same : first ++ '.' :: left = second ++ '.' :: right) :
    first = second ∧ left = right := by
  have equal : first = second := by
    rw [← takeWhile_unbroken unbroken left, same, takeWhile_unbroken unbroken' right]
  subst equal
  exact ⟨rfl, (List.cons.inj (List.append_cancel_left same)).2⟩

theorem date?_name {date : Date} (valid : date.Valid) (tick : Int) (stem : String) :
    date? (name date tick stem) = some date := by
  have dotted : (name date tick stem).toList.contains '.' = true := by
    simp [toList_name]
  unfold date?
  dsimp only
  rw [dotted, if_pos rfl, toList_name, takeWhile_unbroken date.unbroken_underscored,
    Date.ofUnderscored?_underscored valid]

theorem tick_of_name {date date' : Date} {tick tick' : Int} {stem stem' : String}
    (same : name date tick stem = name date' tick' stem') : tick = tick' := by
  have same := congrArg String.toList same
  rw [toList_name, toList_name] at same
  obtain ⟨-, same⟩ := unbroken_append_inj date.unbroken_underscored date'.unbroken_underscored same
  obtain ⟨same, -⟩ := unbroken_append_inj (unbroken_toString tick) (unbroken_toString tick') same
  exact toString_injective (String.toList_injective same)

end Backup

end Waymark
