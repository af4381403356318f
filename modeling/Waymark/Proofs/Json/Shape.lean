import Waymark.Proofs.Json.Numeral
/-!
# The shape of values

Conditions on all numbers of a value and on the order of all its members. What a document gives is
canonical; what is canonical can be given back by a document.
-/

namespace Waymark.Json

def MembersOrdered {α : Type} (members : List (String × α)) : Prop :=
  members.Pairwise fun a b => a.1 < b.1

variable {α : Type}

theorem mem_insertMember {name : String} {value : α} {members : List (String × α)}
    {member : String × α} (inside : member ∈ insertMember name value members) :
    member = (name, value) ∨ member ∈ members := by
  induction members with
  | nil => exact .inl (List.mem_singleton.mp inside)
  | cons first rest ih =>
      unfold insertMember at inside
      split at inside
      · exact List.mem_cons.mp inside
      split at inside
      · exact (List.mem_cons.mp inside).imp_right (List.mem_cons_of_mem _)
      · rcases List.mem_cons.mp inside with here | there
        · exact .inr (here ▸ List.mem_cons_self)
        · exact (ih there).imp_right (List.mem_cons_of_mem _)

theorem insertMember_ordered {name : String} {value : α} {members : List (String × α)}
    (ordered : MembersOrdered members) : MembersOrdered (insertMember name value members) := by
  induction members with
  | nil => exact List.pairwise_singleton _ _
  | cons first rest ih =>
      have after := List.pairwise_cons.mp ordered
      unfold insertMember
      split
      · rename_i before
        refine List.pairwise_cons.mpr ⟨fun other there => ?_, ordered⟩
        rcases List.mem_cons.mp there with here | behind
        · exact here ▸ before
        · exact String.lt_trans before (after.1 other behind)
      split
      · rename_i same
        exact List.pairwise_cons.mpr ⟨same ▸ after.1, after.2⟩
      · rename_i notBefore notSame
        refine List.pairwise_cons.mpr ⟨fun other there => ?_, ih after.2⟩
        rcases mem_insertMember there with new | old
        · rw [new]
          refine String.not_le.mp fun notAfter => notSame ?_
          exact String.le_antisymm notAfter (String.not_lt.mp notBefore)
        · exact after.1 other old

theorem insertMember_of_last {name : String} {value : α} {members : List (String × α)}
    (last : ∀ member ∈ members, member.1 < name) :
    insertMember name value members = members ++ [(name, value)] := by
  induction members with
  | nil => rfl
  | cons first rest ih =>
      obtain ⟨before, others⟩ := List.forall_mem_cons.mp last
      have notBefore : ¬name < first.1 := String.lt_asymm before
      have notSame : name ≠ first.1 := fun same => String.lt_irrefl first.1 (same ▸ before)
      rw [insertMember, if_neg notBefore, if_neg notSame, ih others]
      rfl

theorem orderMembers_ordered (members : List (String × α)) :
    MembersOrdered (orderMembers members) := by
  suffices ∀ start : List (String × α), MembersOrdered start → MembersOrdered
      (members.foldl (fun ordered member => insertMember member.1 member.2 ordered) start) from
    this [] .nil
  induction members with
  | nil => exact fun start ordered => ordered
  | cons first rest ih => exact fun start ordered => ih _ (insertMember_ordered ordered)

theorem mem_orderMembers {members : List (String × α)} {member : String × α}
    (inside : member ∈ orderMembers members) : member ∈ members := by
  suffices ∀ start : List (String × α),
      member ∈ members.foldl (fun ordered member => insertMember member.1 member.2 ordered) start →
        member ∈ start ∨ member ∈ members from (this [] inside).resolve_left List.not_mem_nil
  clear inside
  induction members with
  | nil => exact fun start inside => .inl inside
  | cons first rest ih =>
      intro start inside
      rcases ih _ inside with early | late
      · rcases mem_insertMember early with new | old
        · exact .inr (new ▸ List.mem_cons_self)
        · exact .inl old
      · exact .inr (List.mem_cons_of_mem _ late)

theorem orderMembers_of_ordered {members : List (String × α)} (ordered : MembersOrdered members) :
    orderMembers members = members := by
  suffices ∀ start : List (String × α), MembersOrdered (start ++ members) →
      members.foldl (fun ordered member => insertMember member.1 member.2 ordered) start =
        start ++ members from this [] ordered
  clear ordered
  induction members with
  | nil =>
      intro start _
      simp
  | cons first rest ih =>
      intro start ordered
      have last : ∀ member ∈ start, member.1 < first.1 := fun member inside =>
        (List.pairwise_append.mp ordered).2.2 member inside first List.mem_cons_self
      rw [List.foldl_cons, insertMember_of_last last, ih]
      · simp
      · simpa using ordered

theorem insertMember_perm {name : String} {value : α} {members : List (String × α)}
    (new : ∀ member ∈ members, member.1 ≠ name) :
    (insertMember name value members).Perm ((name, value) :: members) := by
  induction members with
  | nil => exact .refl _
  | cons first rest ih =>
      obtain ⟨other, others⟩ := List.forall_mem_cons.mp new
      unfold insertMember
      split
      · exact .refl _
      · rw [if_neg fun same => other same.symm]
        exact ((ih others).cons first).trans (.swap _ _ _)

theorem orderMembers_perm {members : List (String × α)}
    (differ : members.Pairwise fun a b => a.1 ≠ b.1) : (orderMembers members).Perm members := by
  suffices ∀ start : List (String × α), (start ++ members).Pairwise (fun a b => a.1 ≠ b.1) →
      (members.foldl (fun ordered member => insertMember member.1 member.2 ordered) start).Perm
        (start ++ members) from this [] differ
  clear differ
  induction members with
  | nil =>
      intro start _
      simp
  | cons first rest ih =>
      intro start differ
      have new : ∀ member ∈ start, member.1 ≠ first.1 := fun member inside =>
        (List.pairwise_append.mp differ).2.2 member inside first List.mem_cons_self
      have joined : (insertMember first.1 first.2 start ++ rest).Perm (start ++ first :: rest) :=
        ((insertMember_perm new).append_right _).trans List.perm_middle.symm
      exact (ih _ ((joined.pairwise_iff fun apart => Ne.symm apart).mpr differ)).trans joined

theorem insertMember_map {β : Type} (f : α → β) (name : String) (value : α) (members : List (String × α)) :
    insertMember name (f value) (members.map fun member => (member.1, f member.2)) =
      (insertMember name value members).map fun member => (member.1, f member.2) := by
  induction members with
  | nil => rfl
  | cons first rest ih =>
      simp only [List.map_cons, insertMember]
      split
      · rfl
      split
      · rfl
      · rw [ih, List.map_cons]

theorem orderMembers_map {β : Type} (f : α → β) (members : List (String × α)) :
    orderMembers (members.map fun member => (member.1, f member.2)) =
      (orderMembers members).map fun member => (member.1, f member.2) := by
  suffices ∀ start : List (String × α),
      (members.map fun member => (member.1, f member.2)).foldl
          (fun ordered member => insertMember member.1 member.2 ordered)
          (start.map fun member => (member.1, f member.2)) =
        (members.foldl (fun ordered member => insertMember member.1 member.2 ordered) start).map
          fun member => (member.1, f member.2) from this []
  induction members with
  | nil => exact fun start => rfl
  | cons first rest ih =>
      intro start
      rw [List.map_cons, List.foldl_cons]
      dsimp only
      rw [insertMember_map]
      exact ih _

mutual

def EveryNumber (condition : Number → Prop) : Json → Prop
  | .number value => condition value
  | .array items => EveryNumberItems condition items
  | .object members => EveryNumberMembers condition members
  | _ => True

def EveryNumberItems (condition : Number → Prop) : List Json → Prop
  | [] => True
  | item :: items => EveryNumber condition item ∧ EveryNumberItems condition items

def EveryNumberMembers (condition : Number → Prop) : List (String × Json) → Prop
  | [] => True
  | (_, value) :: members => EveryNumber condition value ∧ EveryNumberMembers condition members

end

abbrev NoDoubles : Json → Prop :=
  EveryNumber Number.IsWhole

abbrev Fits : Json → Prop :=
  EveryNumber Number.Fits

mutual

def Canonical : Json → Prop
  | .array items => CanonicalItems items
  | .object members => MembersOrdered members ∧ CanonicalMembers members
  | _ => True

def CanonicalItems : List Json → Prop
  | [] => True
  | item :: items => Canonical item ∧ CanonicalItems items

def CanonicalMembers : List (String × Json) → Prop
  | [] => True
  | (_, value) :: members => Canonical value ∧ CanonicalMembers members

end

theorem everyNumberMembers_iff {condition : Number → Prop} {members : List (String × Json)} :
    EveryNumberMembers condition members ↔
      ∀ member ∈ members, EveryNumber condition member.2 := by
  induction members with
  | nil => simp [EveryNumberMembers]
  | cons first rest ih => simp [EveryNumberMembers, ih]

theorem canonicalMembers_iff {members : List (String × Json)} :
    CanonicalMembers members ↔ ∀ member ∈ members, Canonical member.2 := by
  induction members with
  | nil => simp [CanonicalMembers]
  | cons first rest ih => simp [CanonicalMembers, ih]

theorem depthMembers_le_iff {members : List (String × Json)} {bound : Nat} :
    depthMembers members ≤ bound ↔ ∀ member ∈ members, depth member.2 ≤ bound := by
  induction members with
  | nil => simp [depthMembers]
  | cons first rest ih =>
      simp only [depthMembers, List.forall_mem_cons, ← ih]
      omega

theorem everyNumberItems_iff {condition : Number → Prop} {items : List Json} :
    EveryNumberItems condition items ↔ ∀ item ∈ items, EveryNumber condition item := by
  induction items with
  | nil => simp [EveryNumberItems]
  | cons first rest ih => simp [EveryNumberItems, ih]

theorem canonicalItems_iff {items : List Json} :
    CanonicalItems items ↔ ∀ item ∈ items, Canonical item := by
  induction items with
  | nil => simp [CanonicalItems]
  | cons first rest ih => simp [CanonicalItems, ih]

theorem depthItems_le_iff {items : List Json} {bound : Nat} :
    depthItems items ≤ bound ↔ ∀ item ∈ items, depth item ≤ bound := by
  induction items with
  | nil => simp [depthItems]
  | cons first rest ih =>
      simp only [depthItems, List.forall_mem_cons, ← ih]
      omega

mutual

theorem eq_of_same {a b : Json} (same : a.same b = true) (whole : b.NoDoubles) : a = b := by
  cases a <;> cases b <;> simp only [Json.same, Bool.false_eq_true, decide_eq_true_eq] at same
  case null.null => rfl
  case boolean.boolean => rw [same]
  case number.number m n =>
      cases n with
      | double value => exact whole.elim
      | integer value =>
          cases m with
          | double other => cases same
          | integer other =>
              simp only [Number.same, decide_eq_true_eq] at same
              rw [same]
  case string.string => rw [same]
  case array.array as bs =>
      simp only [NoDoubles, EveryNumber] at whole
      rw [eq_of_sameItems same whole]
  case object.object as bs =>
      simp only [NoDoubles, EveryNumber] at whole
      rw [eq_of_sameMembers same whole]

theorem eq_of_sameItems {as bs : List Json} (same : sameItems as bs = true)
    (whole : EveryNumberItems Number.IsWhole bs) : as = bs := by
  cases as <;> cases bs <;> simp only [sameItems, Bool.false_eq_true, Bool.and_eq_true] at same
  case nil.nil => rfl
  case cons.cons a as b bs => rw [eq_of_same same.1 whole.1, eq_of_sameItems same.2 whole.2]

theorem eq_of_sameMembers {as bs : List (String × Json)} (same : sameMembers as bs = true)
    (whole : EveryNumberMembers Number.IsWhole bs) : as = bs := by
  cases as <;> cases bs <;> simp only [sameMembers, Bool.false_eq_true] at same
  case nil.nil => rfl
  case cons.cons a as b bs =>
      obtain ⟨name, x⟩ := a
      obtain ⟨other, y⟩ := b
      simp only [Bool.and_eq_true, decide_eq_true_eq] at same
      rw [same.1.1, eq_of_same same.1.2 whole.1, eq_of_sameMembers same.2 whole.2]

end

mutual

theorem depth_of_same {a b : Json} (same : a.same b = true) : a.depth = b.depth := by
  cases a <;> cases b <;> simp only [Json.same, Bool.false_eq_true] at same
  case array.array as bs => simp only [depth, depthItems_of_same same]
  case object.object as bs => simp only [depth, depthMembers_of_same same]
  all_goals rfl

theorem depthItems_of_same {as bs : List Json} (same : sameItems as bs = true) :
    depthItems as = depthItems bs := by
  cases as <;> cases bs <;> simp only [sameItems, Bool.false_eq_true, Bool.and_eq_true] at same
  case nil.nil => rfl
  case cons.cons a as b bs =>
      simp only [depthItems, depth_of_same same.1, depthItems_of_same same.2]

theorem depthMembers_of_same {as bs : List (String × Json)} (same : sameMembers as bs = true) :
    depthMembers as = depthMembers bs := by
  cases as <;> cases bs <;> simp only [sameMembers, Bool.false_eq_true] at same
  case nil.nil => rfl
  case cons.cons a as b bs =>
      simp only [Bool.and_eq_true, decide_eq_true_eq] at same
      simp only [depthMembers, depth_of_same same.1.2, depthMembers_of_same same.2]

end

end Waymark.Json
