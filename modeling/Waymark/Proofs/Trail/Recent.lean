import Waymark.Proofs.Trail.Replace
import Waymark.Proofs.Trail.Visited
/-!
# The locations visited last

When the clock of the visits never goes back, a trail lists the locations that were visited last,
the latest first, as many as its limit allows. An entry has the name and the time of the last visit;
its key is spelled as in the first visit since the location came into the trail, and its icon is the
first one offered since then. What was cut off and comes back starts anew.
-/

namespace Waymark

theorem take_filter_take {α : Type} {drops : α → Bool} {all : List α}
    (once : all.Pairwise fun a b => drops a = true → drops b = false) (count : Nat) :
    ((all.take (count + 1)).filter fun a => !drops a).take count =
      (all.filter fun a => !drops a).take count := by
  induction all generalizing count with
  | nil => rfl
  | cons first rest ih =>
      obtain ⟨alone, others⟩ := List.pairwise_cons.mp once
      cases dropped : drops first with
      | true =>
          have kept : (rest.filter fun a => !drops a) = rest :=
            List.filter_eq_self.mpr fun a inside => by simp [alone a inside dropped]
          have keptAhead : ((rest.take count).filter fun a => !drops a) = rest.take count :=
            List.filter_eq_self.mpr fun a inside => by
              simp [alone a (List.mem_of_mem_take inside) dropped]
          simp [dropped, kept, keptAhead, List.take_take]
      | false =>
          cases count with
          | zero => simp
          | succ count => simp [dropped, ih others count]

structure Visit where
  location : Location
  icon : Option String
  now : Instant

namespace Visit

def isRecorded (visit : Visit) : Bool :=
  visit.location.isRecordable

def isTo (visit : Visit) (key : String) : Bool :=
  Key.same visit.location.key key

theorem isTo_iff {visit : Visit} {key : String} :
    visit.isTo key = true ↔ Text.lower visit.location.key = Text.lower key :=
  Text.sameButCase_iff _ _

theorem isTo_self (visit : Visit) : visit.isTo visit.location.key = true :=
  isTo_iff.mpr rfl

def latest : List Visit → List Visit
  | [] => []
  | visit :: log => visit :: (latest log).filter fun other => !other.isTo visit.location.key

def shown (limit : Nat) (log : List Visit) : List Visit :=
  (latest log).take limit

/-- The visits to a location since it last came into the trail, the first of them first. -/
def stay (limit : Nat) (key : String) : List Visit → List Visit
  | [] => []
  | visit :: log =>
      if visit.isTo key then
        (if (shown limit log).any (·.isTo key) then stay limit key log else []) ++ [visit]
      else stay limit key log

def entry (limit : Nat) (log : List Visit) (visit : Visit) : Entry where
  key := ((stay limit visit.location.key log).headD visit).location.key
  name := visit.location.name
  icon := (stay limit visit.location.key log).findSome? Visit.icon
  visited := visit.now
  sequence := 0

theorem latest_sublist (log : List Visit) : (latest log).Sublist log := by
  induction log with
  | nil => exact .slnil
  | cons visit log ih => exact (List.filter_sublist.trans ih).cons_cons visit

theorem mem_of_mem_shown {limit : Nat} {log : List Visit} {visit : Visit}
    (inside : visit ∈ shown limit log) : visit ∈ log :=
  (latest_sublist log).subset (List.mem_of_mem_take inside)

theorem latest_pairwise (log : List Visit) :
    (latest log).Pairwise fun a b => b.isTo a.location.key = false := by
  induction log with
  | nil => exact .nil
  | cons visit log ih =>
      refine List.pairwise_cons.mpr ⟨fun other inside => ?_, ih.filter _⟩
      simpa using (List.mem_filter.mp inside).2

theorem latest_notBoth (log : List Visit) (key : String) :
    (latest log).Pairwise fun a b => a.isTo key = true → b.isTo key = false := by
  refine (latest_pairwise log).imp fun {a b} differ here => ?_
  refine Bool.eq_false_iff.mpr fun there => ?_
  have same : b.isTo a.location.key = true :=
    isTo_iff.mpr ((isTo_iff.mp there).trans (isTo_iff.mp here).symm)
  exact absurd same (by simp [differ])

theorem stay_of_same {limit : Nat} {a b : String} (same : Text.lower a = Text.lower b)
    (log : List Visit) : stay limit a log = stay limit b log := by
  have agree : ∀ visit : Visit, visit.isTo a = visit.isTo b := fun visit =>
    Bool.eq_iff_iff.mpr (by rw [isTo_iff, isTo_iff, same])
  induction log with
  | nil => rfl
  | cons visit log ih => simp only [stay, agree, ih]

theorem isTo_of_mem_stay {limit : Nat} {key : String} {log : List Visit} {visit : Visit}
    (inside : visit ∈ stay limit key log) : visit.isTo key = true := by
  induction log with
  | nil => cases inside
  | cons first log ih =>
      unfold stay at inside
      split at inside
      · rename_i here
        rcases List.mem_append.mp inside with early | last
        · split at early
          · exact ih early
          · cases early
        · exact List.mem_singleton.mp last ▸ here
      · exact ih inside

theorem stay_ne_nil {limit : Nat} {log : List Visit} {visit : Visit} (inside : visit ∈ log) :
    stay limit visit.location.key log ≠ [] := by
  induction log with
  | nil => cases inside
  | cons first log ih =>
      unfold stay
      split
      · simp
      · rename_i another
        rcases List.mem_cons.mp inside with here | there
        · exact absurd (here ▸ visit.isTo_self) another
        · exact ih there

theorem entry_key_same (limit : Nat) (log : List Visit) (visit : Visit) :
    Text.lower (entry limit log visit).key = Text.lower visit.location.key := by
  cases visits : stay limit visit.location.key log with
  | nil => simp [entry, visits]
  | cons first rest =>
      have inside : first ∈ stay limit visit.location.key log := by simp [visits]
      simpa [entry, visits] using isTo_iff.mp (isTo_of_mem_stay inside)

theorem entry_cons_of_other {limit : Nat} {log : List Visit} {visit other : Visit}
    (another : visit.isTo other.location.key = false) :
    entry limit (visit :: log) other = entry limit log other := by
  simp [entry, stay, another]

theorem entry_cons_of_new {limit : Nat} {log : List Visit} {visit : Visit}
    (absent : (shown limit log).any (·.isTo visit.location.key) = false) :
    entry limit (visit :: log) visit =
      ⟨visit.location.key, visit.location.name, visit.icon, visit.now, 0⟩ := by
  cases icon : visit.icon <;> simp [entry, stay, visit.isTo_self, absent, icon]

theorem entry_cons_of_known {limit : Nat} {log : List Visit} {visit old : Visit}
    (inside : old ∈ shown limit log) (same : old.isTo visit.location.key = true) :
    entry limit (visit :: log) visit =
      ((entry limit log old).visit visit.location.name visit.icon visit.now 0) := by
  have present : (shown limit log).any (·.isTo visit.location.key) = true :=
    List.any_eq_true.mpr ⟨old, inside, same⟩
  have visits : stay limit visit.location.key log = stay limit old.location.key log :=
    stay_of_same (isTo_iff.mp same).symm log
  have stayed : stay limit old.location.key log ≠ [] := stay_ne_nil (mem_of_mem_shown inside)
  obtain ⟨first, rest, parts⟩ := List.exists_cons_of_ne_nil stayed
  have icons : [visit].findSome? Visit.icon = visit.icon := by
    cases icon : visit.icon <;> simp [icon]
  simp only [entry, stay, visit.isTo_self, present, visits, if_true, List.findSome?_append, icons,
    Entry.visit]
  simp [parts]

end Visit

namespace Trail
open Entry

def visitAll (trail : Trail) (visits : List Visit) : Trail :=
  trail.run (visits.map fun visit => .visit visit.location visit.icon visit.now)

def ofLog (limit : Nat) (log : List Visit) : Trail :=
  log.foldr (fun visit trail => (trail.visit visit.location visit.icon visit.now).1) (empty limit)

theorem visitAll_eq_ofLog (limit : Nat) (visits : List Visit) :
    (empty limit).visitAll visits = ofLog limit visits.reverse := by
  rw [visitAll, run, List.foldl_map, ofLog, List.foldr_reverse]
  rfl

theorem visitAll_recorded (trail : Trail) (visits : List Visit) :
    trail.visitAll visits = trail.visitAll (visits.filter Visit.isRecorded) := by
  induction visits generalizing trail with
  | nil => rfl
  | cons visit visits ih =>
      cases recorded : visit.isRecorded with
      | true =>
          rw [List.filter_cons_of_pos recorded]
          exact ih _
      | false =>
          rw [List.filter_cons_of_neg (by simp [recorded]), ← ih trail]
          change (trail.visit visit.location visit.icon visit.now).1.visitAll visits = _
          rw [visit_of_not_recordable recorded]

theorem coherent_ofLog (limit : Nat) (log : List Visit) : (ofLog limit log).Coherent := by
  induction log with
  | nil => exact coherent_empty limit
  | cons visit log ih => exact ih.visit visit.location visit.icon visit.now

theorem limit_ofLog (limit : Nat) (log : List Visit) :
    (ofLog limit log).limit = clampLimit limit := by
  induction log with
  | nil => rfl
  | cons visit log ih =>
      refine Eq.trans ?_ ih
      change ((ofLog limit log).visit visit.location visit.icon visit.now).1.limit = _
      unfold Trail.visit
      split <;> rfl

variable {limit : Nat} {log : List Visit}

theorem cursor_ofLog (recorded : ∀ visit ∈ log, visit.isRecorded = true) :
    (ofLog limit log).cursor = if log = [] then none else some 0 := by
  cases log with
  | nil => rfl
  | cons visit log =>
      change ((ofLog limit log).visit visit.location visit.icon visit.now).1.cursor = _
      rw [visit_of_recordable (recorded visit List.mem_cons_self), if_neg (List.cons_ne_nil _ _)]

def Shows (trail : Trail) (limit : Nat) (log : List Visit) : Prop :=
  trail.entries.map bare = (Visit.shown limit log).map (Visit.entry limit log)

variable {trail : Trail}

theorem Shows.mem (shows : trail.Shows limit log) {entry : Entry} (inside : entry ∈ trail.entries) :
    ∃ visit ∈ Visit.shown limit log, Visit.entry limit log visit = entry.bare := by
  have copied : entry.bare ∈ trail.entries.map bare := List.mem_map_of_mem inside
  rw [shows] at copied
  exact List.mem_map.mp copied

theorem Shows.find?_eq_none (shows : trail.Shows limit log) {key : String}
    (absent : trail.find? key = none) : (Visit.shown limit log).any (·.isTo key) = false := by
  refine List.any_eq_false.mpr fun visit inside here => ?_
  have copied : Visit.entry limit log visit ∈ trail.entries.map bare := by
    rw [shows]
    exact List.mem_map_of_mem inside
  obtain ⟨entry, there, same⟩ := List.mem_map.mp copied
  have key : Key.same entry.key key = true := by
    have known : entry.bare.key = (Visit.entry limit log visit).key := congrArg Entry.key same
    change Key.same entry.bare.key key = true
    rw [Text.sameButCase_iff, known, Visit.entry_key_same]
    exact Visit.isTo_iff.mp here
  exact List.find?_eq_none.mp absent entry there key

theorem Shows.others (shows : trail.Shows limit log) (visit : Visit) :
    (trail.others visit.location.key).map bare =
      ((Visit.shown limit log).filter fun other => !other.isTo visit.location.key).map
        (Visit.entry limit (visit :: log)) := by
  have byKey : trail.others visit.location.key = trail.entries.filter
      ((fun entry => !Key.same entry.key visit.location.key) ∘ bare) := rfl
  have agree : ∀ other : Visit,
      Key.same (Visit.entry limit log other).key visit.location.key =
        other.isTo visit.location.key := fun other => by
    rw [Bool.eq_iff_iff, Text.sameButCase_iff, Visit.entry_key_same, Visit.isTo_iff]
  rw [byKey, ← List.filter_map, shows, List.filter_map]
  simp only [Function.comp_def, agree]
  refine List.map_congr_left fun other inside => (Visit.entry_cons_of_other ?_).symm
  have another : other.isTo visit.location.key = false := by simpa using (List.mem_filter.mp inside).2
  rwa [Visit.isTo, Key.same_comm]

theorem Shows.recordedVisit (shows : trail.Shows limit log) (visit : Visit) :
    (trail.recordedVisit visit.location visit.icon visit.now).bare =
      Visit.entry limit (visit :: log) visit := by
  unfold Trail.recordedVisit
  cases found : trail.find? visit.location.key with
  | none => exact (Visit.entry_cons_of_new (shows.find?_eq_none found)).symm
  | some entry =>
      have same : Key.same entry.key visit.location.key = true := by simpa using List.find?_some found
      obtain ⟨old, inside, copy⟩ := shows.mem (List.mem_of_find?_eq_some found)
      have here : old.isTo visit.location.key = true := by
        rw [Visit.isTo_iff, ← Visit.entry_key_same limit log, copy]
        exact (Text.sameButCase_iff _ _).mp same
      rw [Visit.entry_cons_of_known inside here, copy]
      rfl

theorem shows_ofLog (recorded : ∀ visit ∈ log, visit.isRecorded = true)
    (forward : log.Pairwise fun late early => ¬late.now < early.now) :
    (ofLog limit log).Shows (clampLimit limit) log := by
  induction log with
  | nil => simp [ofLog, empty, Shows, Visit.shown, Visit.latest]
  | cons visit log ih =>
      obtain ⟨here, before⟩ := List.forall_mem_cons.mp recorded
      obtain ⟨last, earlier⟩ := List.pairwise_cons.mp forward
      have shows := ih before earlier
      have latest : ∀ entry ∈ (ofLog limit log).entries, ¬visit.now < entry.visited := by
        intro entry inside
        obtain ⟨old, there, copy⟩ := shows.mem inside
        have time : old.now = entry.visited := congrArg Entry.visited copy
        exact time ▸ last old (Visit.mem_of_mem_shown there)
      obtain ⟨count, some⟩ : ∃ count, clampLimit limit = count + 1 :=
        Nat.exists_eq_succ_of_ne_zero (by simp only [clampLimit]; omega)
      calc (ofLog limit (visit :: log)).entries.map bare
          = (((ofLog limit log).recordedVisit visit.location visit.icon visit.now ::
              (ofLog limit log).others visit.location.key).take (clampLimit limit)).map bare := by
            change ((ofLog limit log).visit visit.location visit.icon visit.now).1.entries.map bare = _
            rw [(coherent_ofLog limit log).visit_entries_of_latest here _ latest, limit_ofLog]
        _ = ((visit :: (Visit.shown (clampLimit limit) log).filter fun other =>
              !other.isTo visit.location.key).take (clampLimit limit)).map
              (Visit.entry (clampLimit limit) (visit :: log)) := by
            rw [List.map_take, List.map_cons, shows.recordedVisit, shows.others, ← List.map_cons,
              ← List.map_take]
        _ = (Visit.shown (clampLimit limit) (visit :: log)).map
              (Visit.entry (clampLimit limit) (visit :: log)) := by
            simp only [some, Visit.shown, Visit.latest, List.take_succ_cons,
              take_filter_take (Visit.latest_notBoth log visit.location.key)]

/-- A trail is the list of the locations visited last, when the clock of the recorded visits does
not go back. Placeholders and empty keys leave no trace. -/
theorem entries_visitAll (limit : Nat) (visits : List Visit)
    (forward : (visits.filter Visit.isRecorded).Pairwise fun early late => ¬late.now < early.now) :
    let trail := (empty limit).visitAll visits
    let recorded := visits.filter Visit.isRecorded
    let log := recorded.reverse
    trail = (empty limit).visitAll recorded ∧
      trail.entries.map bare =
        ((Visit.latest log).take (clampLimit limit)).map (Visit.entry (clampLimit limit) log) ∧
      trail.cursor = if recorded = [] then none else some 0 := by
  intro trail recorded log
  have same : trail = (empty limit).visitAll recorded := visitAll_recorded _ visits
  have logged : trail = ofLog limit log := same.trans (visitAll_eq_ofLog limit recorded)
  have all : ∀ visit ∈ log, visit.isRecorded = true := fun visit inside =>
    (List.mem_filter.mp (List.mem_reverse.mp inside)).2
  have cursor : trail.cursor = if log = [] then none else some 0 := logged ▸ cursor_ofLog all
  refine ⟨same, logged ▸ shows_ofLog all (List.pairwise_reverse.mpr forward), ?_⟩
  simpa only [log, List.reverse_eq_nil_iff] using cursor

/-- Ten other locations cut the first one off, which then comes back without its icon. -/
def returningVisits : List Visit :=
  ⟨.named "/a" "a", some "folder", ⟨1, 0⟩⟩ ::
    (List.range 10).map (fun index => ⟨.named (toString index) "other", none, ⟨2, index⟩⟩) ++
    [⟨.placeholder "/b", none, ⟨0, 0⟩⟩, ⟨.named "/A" "again", none, ⟨3, 0⟩⟩,
      ⟨.named "9" "nine", some "file", ⟨3, 0⟩⟩, ⟨.named "/a" "A", none, ⟨3, 0⟩⟩]

theorem entries_returningVisits :
    ((returningVisits.filter Visit.isRecorded).Pairwise fun early late => ¬late.now < early.now) ∧
      (((empty 3).visitAll returningVisits).entries.map bare).take 3 =
        [⟨"/A", "A", none, ⟨3, 0⟩, 0⟩, ⟨"9", "nine", some "file", ⟨3, 0⟩, 0⟩,
          ⟨"8", "other", none, ⟨2, 8⟩, 0⟩] ∧
      ((empty 3).visitAll returningVisits).cursor = some 0 := by
  have forward : (returningVisits.filter Visit.isRecorded).Pairwise
      fun early late => ¬late.now < early.now := by decide +kernel
  obtain ⟨-, entries, cursor⟩ := entries_visitAll 3 returningVisits forward
  refine ⟨forward, ?_, ?_⟩
  · rw [entries]
    decide +kernel
  · rw [cursor]
    decide +kernel

end Trail
end Waymark
