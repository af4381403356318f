import Mathlib.Data.List.SplitBy
import Waymark.Proofs.Document.Announced
import Waymark.Proofs.Path
import Waymark.Session.Watch
/-!
# When settings are read again

Other programs write the settings at any time, and the watch is told of it. The settings are read
once for each group of tellings that come shortly after one another, a while after the last of them.
-/

namespace Waymark

namespace Watch

def isShortlyAfter (earlier later : Nat) : Bool :=
  later < earlier + calm

/-- The moments at which the file has been left alone for a while, if the watch is told of it at
these times. -/
def settlings (tellings : List Nat) : List Nat :=
  (tellings.splitBy isShortlyAfter).filterMap fun group => group.getLast?.map (· + calm)

theorem settlings_singleton (time : Nat) : settlings [time] = [time + calm] :=
  rfl

theorem settlings_of_late {earlier : Nat} {later : List Nat}
    (late : ∀ time ∈ later, earlier + calm ≤ time) :
    settlings (earlier :: later) = (earlier + calm) :: settlings later := by
  have apart : (earlier :: later).splitBy isShortlyAfter =
      [earlier] :: later.splitBy isShortlyAfter := by
    refine List.splitBy_append (l := [earlier]) (m := later) fun first here next there => ?_
    cases Option.some.inj here
    exact decide_eq_false (Nat.not_lt.mpr (late next (List.mem_of_mem_head? there)))
  rw [settlings, apart]
  rfl

theorem splitBy_of_soon {earlier time : Nat} {later group : List Nat} {groups : List (List Nat)}
    (soon : time < earlier + calm)
    (split : (time :: later).splitBy isShortlyAfter = group :: groups) :
    (earlier :: time :: later).splitBy isShortlyAfter = (earlier :: group) :: groups := by
  obtain ⟨whole, nonempty, close, apart⟩ := List.splitBy_eq_iff.mp split
  rw [List.mem_cons, not_or] at nonempty
  obtain ⟨next, more, rfl⟩ := List.exists_cons_of_ne_nil (Ne.symm nonempty.1)
  obtain ⟨rfl, -⟩ := List.cons.inj whole
  refine List.splitBy_eq_iff.mpr ⟨congrArg (earlier :: ·) whole, ?_, fun member inside => ?_, ?_⟩
  · simp [nonempty.2]
  · rcases List.mem_cons.mp inside with rfl | old
    · exact List.isChain_cons_cons.mpr ⟨decide_eq_true soon, close _ List.mem_cons_self⟩
    · exact close member (List.mem_cons_of_mem _ old)
  · cases groups with
    | nil => exact List.isChain_singleton _
    | cons second groups =>
        obtain ⟨⟨_, another, far⟩, apart⟩ := List.isChain_cons_cons.mp apart
        exact List.isChain_cons_cons.mpr ⟨⟨List.cons_ne_nil _ _, another, far⟩, apart⟩

theorem settlings_of_soon {earlier time : Nat} (soon : time < earlier + calm) (later : List Nat) :
    settlings (earlier :: time :: later) = settlings (time :: later) := by
  have some : (time :: later).splitBy isShortlyAfter ≠ [] :=
    mt List.splitBy_eq_nil.mp (List.cons_ne_nil time later)
  obtain ⟨group, groups, split⟩ := List.exists_cons_of_ne_nil some
  have listed : group ∈ (time :: later).splitBy isShortlyAfter := split ▸ List.mem_cons_self
  obtain ⟨next, more, rfl⟩ := List.exists_cons_of_ne_nil (List.ne_nil_of_mem_splitBy listed)
  rw [settlings, settlings, split, splitBy_of_soon soon split]
  rfl

theorem exists_of_mem_settlings {moment : Nat} {tellings : List Nat}
    (inside : moment ∈ settlings tellings) : ∃ time ∈ tellings, moment = time + calm := by
  obtain ⟨group, listed, last⟩ := List.mem_filterMap.mp inside
  obtain ⟨time, ends, rfl⟩ := Option.map_eq_some_iff.mp last
  refine ⟨time, ?_, rfl⟩
  rw [← List.flatten_splitBy isShortlyAfter tellings]
  exact List.mem_flatten.mpr ⟨group, listed, List.mem_of_getLast? ends⟩

end Watch

namespace Session

structure Idle (session : Session) : Prop where
  saved : session.settings.isPending = false
  taken : session.events = []
  own : session.settings.path = session.layout.settings

def drain (session : Session) : Session :=
  { session with events := [] }

variable {session : Session} {disk : Disk}

theorem Idle.drain (idle : session.Idle) : session.drain = session := by
  obtain ⟨layout, settings, history, events⟩ := session
  cases idle.taken
  rfl

theorem refresh_of_read {file : Bag} (saved : session.settings.isPending = false)
    (found : Document.read disk session.settings.path = .ok (some file)) :
    session.refresh disk =
      let names := session.settings.bag.changes file
      let read : Session :=
        { session with settings := { session.settings with bag := file }.announce names }
      if names = [] then read
      else
        { read with
          history := session.history.setLimit (Settings.maximumHistoryEntries file)
          events := session.events ++ [.settings names] } := by
  have taken : session.settings.reload disk =
      ({ session.settings with bag := file }.announce (session.settings.bag.changes file),
        session.settings.bag.changes file) := by
    refine Prod.ext (Document.reload_of_read saved found) ?_
    rw [Document.reload, saved, found]
    rfl
  rw [refresh, taken]
  cases session.settings.bag.changes file <;> rfl

theorem refresh_of_unread
    (unread : ∀ file, Document.read disk session.settings.path ≠ .ok (some file)) :
    session.refresh disk = session := by
  have left : session.settings.reload disk = (session.settings, []) := by
    unfold Document.reload
    split
    · rfl
    split
    · rename_i file found
      exact absurd found (unread file)
    · rfl
  rw [refresh, left]

theorem layout_refresh (session : Session) (disk : Disk) :
    (session.refresh disk).layout = session.layout := by
  unfold refresh
  split <;> rfl

theorem entries_refresh (session : Session) (disk : Disk) :
    (session.refresh disk).history.trail.entries = session.history.trail.entries := by
  unfold refresh
  split <;> rfl

theorem cursor_refresh (session : Session) (disk : Disk) :
    (session.refresh disk).history.trail.cursor = session.history.trail.cursor := by
  unfold refresh
  split <;> rfl

theorem Idle.refresh (idle : session.Idle) (disk : Disk) : (session.refresh disk).drain.Idle := by
  have kept : (session.refresh disk).settings.isPending = session.settings.isPending ∧
      (session.refresh disk).settings.path = session.settings.path := by
    by_cases unread : ∀ file, Document.read disk session.settings.path ≠ .ok (some file)
    · rw [refresh_of_unread unread]
      exact ⟨rfl, rfl⟩
    · simp only [ne_eq, not_forall, not_not] at unread
      obtain ⟨file, found⟩ := unread
      rw [refresh_of_read idle.saved found]
      dsimp only
      split <;> exact ⟨rfl, rfl⟩
  obtain ⟨saved, path⟩ := kept
  have own : session.settings.path = (session.refresh disk).layout.settings := by
    rw [idle.own, layout_refresh]
  exact ⟨saved.trans idle.saved, rfl, path.trans own⟩

end Session

structure Reload where
  moment : Nat
  disk : Disk
  before : Session
  after : Session
  told : List Event

namespace Reload

/-- What becomes of the settings is in the file at that moment. The window is told once of all
values that differ, and of nothing else. -/
structure Lawful (reload : Reload) : Prop where
  taken : ∀ file, Document.read reload.disk reload.before.layout.settings = .ok (some file) →
    reload.after.settings.bag = file
  told : ∀ file, Document.read reload.disk reload.before.layout.settings = .ok (some file) →
    (∃ name, ¬reload.before.settings.bag.AgreeOn file name) →
      (∃ names, reload.told = [.settings names] ∧ Bag.Tells names reload.before.settings.bag file ∧
        names.Pairwise fun a b => Text.lower a ≠ Text.lower b) ∧
      reload.after.history.trail.limit =
        Settings.maximumHistoryEntries reload.after.settings.bag
  quiet : (∀ file, Document.read reload.disk reload.before.layout.settings = .ok (some file) →
      ∀ name, reload.before.settings.bag.AgreeOn file name) →
    reload.told = [] ∧ reload.after.history = reload.before.history ∧
      ∀ name, reload.before.settings.bag.AgreeOn reload.after.settings.bag name
  untouched : (∀ file, Document.read reload.disk reload.before.layout.settings ≠ .ok (some file)) →
    reload.after = reload.before
  layout : reload.after.layout = reload.before.layout
  entries : reload.after.history.trail.entries = reload.before.history.trail.entries
  cursor : reload.after.history.trail.cursor = reload.before.history.trail.cursor

def of (moment : Nat) (disk : Disk) (session : Session) : Reload :=
  ⟨moment, disk, session, (session.refresh disk).drain, (session.refresh disk).events⟩

variable {session : Session} {disk : Disk} {moment : Nat}

theorem lawful_of_unread (idle : session.Idle)
    (unread : ∀ file, Document.read disk session.settings.path ≠ .ok (some file)) :
    (of moment disk session).Lawful := by
  have same : (of moment disk session).after = session := by
    rw [of, Session.refresh_of_unread unread]
    exact idle.drain
  have silent : (of moment disk session).told = [] := by
    rw [of, Session.refresh_of_unread unread]
    exact idle.taken
  rw [idle.own] at unread
  constructor
  · exact fun file found => absurd found (unread file)
  · exact fun file found => absurd found (unread file)
  · intro
    rw [same]
    exact ⟨silent, rfl, fun name => Bag.agreeOn_of_eq rfl⟩
  · exact fun _ => same
  all_goals
    rw [same]
    rfl

theorem lawful_of_read {file : Bag} (idle : session.Idle)
    (found : Document.read disk session.settings.path = .ok (some file)) :
    (of moment disk session).Lawful := by
  have refreshed := Session.refresh_of_read idle.saved found
  have tells := Bag.tells_changes session.settings.bag file
  rw [idle.own] at found
  have only {other : Bag} (read : Document.read disk session.layout.settings = .ok (some other)) :
      file = other := Option.some.inj (Except.ok.inj (found.symm.trans read))
  by_cases same : session.settings.bag.changes file = []
  · rw [if_pos same] at refreshed
    have agree (name : String) : session.settings.bag.AgreeOn file name := by
      rw [same] at tells
      exact by_contra fun differ => nomatch (tells name).mpr differ
    constructor
    · intro other read
      rw [of, refreshed]
      exact only read
    · rintro other read ⟨name, differ⟩
      exact absurd (only read ▸ agree name) differ
    · intro
      rw [of, refreshed]
      exact ⟨idle.taken, rfl, agree⟩
    · exact fun unread => absurd found (unread file)
    · exact Session.layout_refresh session disk
    · exact Session.entries_refresh session disk
    · exact Session.cursor_refresh session disk
  · rw [if_neg same] at refreshed
    constructor
    · intro other read
      rw [of, refreshed]
      exact only read
    · intro other read _
      cases only read
      rw [of, refreshed]
      refine ⟨⟨_, ?_, tells, Bag.changes_differ _ _⟩, ?_⟩
      · simp only [idle.taken, List.nil_append]
      · simp only [Session.drain, History.setLimit, Trail.setLimit, Document.announce,
          Settings.maximumHistoryEntries, Trail.clampLimit]
        omega
    · exact fun agree => absurd (tells.eq_nil (agree file found)) same
    · exact fun unread => absurd found (unread file)
    · exact Session.layout_refresh session disk
    · exact Session.entries_refresh session disk
    · exact Session.cursor_refresh session disk

theorem lawful_of (idle : session.Idle) : (of moment disk session).Lawful := by
  by_cases unread : ∀ file, Document.read disk session.settings.path ≠ .ok (some file)
  · exact lawful_of_unread idle unread
  · simp only [ne_eq, not_forall, not_not] at unread
    exact lawful_of_read idle unread.choose_spec

end Reload

/-- Another program leaves the disk as it is from then on, or the watch is told that a file was
written to. -/
inductive Happening where
  | change (disk : Disk)
  | tell (name : String)

def Happening.told? (now : Nat) : Happening → Option Nat
  | .change _ => none
  | .tell name => if name = "globalSettings.json" then some now else none

structure Scene where
  session : Session
  disk : Disk
  watch : Watch

namespace Scene

def start (session : Session) (disk : Disk) : Scene :=
  ⟨session, disk, ⟨none⟩⟩

/-- Lets time pass until just before `now`. The settings were read if the deadline is gone, and the
window takes at once what it is told. -/
def pass (scene : Scene) (now : Nat) : Scene × List Reload :=
  let (session, watch) := scene.session.wake scene.disk scene.watch now
  (⟨session.drain, scene.disk, watch⟩,
    match scene.watch.deadline, watch.deadline with
    | some moment, none => [⟨moment, scene.disk, scene.session, session.drain, session.events⟩]
    | _, _ => [])

def meet (scene : Scene) (now : Nat) : Happening → Scene
  | .change disk => { scene with disk }
  | .tell name => { scene with watch := scene.watch.notice scene.session.layout name now }

def run (scene : Scene) : List (Nat × Happening) → Nat → Scene × List Reload
  | [], horizon => scene.pass horizon
  | (now, happening) :: story, horizon =>
      let (passed, early) := scene.pass now
      let (after, late) := (passed.meet now happening).run story horizon
      (after, early ++ late)

def tellings (story : List (Nat × Happening)) : List Nat :=
  story.filterMap fun entry => entry.2.told? entry.1

def diskAt (disk : Disk) (story : List (Nat × Happening)) (moment : Nat) : Disk :=
  (story.filterMap fun (now, happening) =>
    match happening with
    | .change disk => if now ≤ moment then some disk else none
    | .tell _ => none).getLastD disk

/-- When the settings are to be read before `horizon`, and what is on the disk then. -/
def schedule (disk : Disk) (story : List (Nat × Happening)) (times : List Nat) (horizon : Nat) :
    List (Nat × Disk) :=
  ((Watch.settlings times).filter (· < horizon)).map fun moment =>
    (moment, diskAt disk story moment)

def Linked (before : Session) (after : Session) : List Reload → Prop
  | [] => after = before
  | reload :: rest => reload.before = before ∧ Linked reload.after after rest

variable {scene : Scene} {now moment : Nat}

theorem pass_of_due (deadline : scene.watch.deadline = some moment) (due : moment < now) :
    scene.pass now =
      (⟨(Reload.of moment scene.disk scene.session).after, scene.disk, ⟨none⟩⟩,
        [.of moment scene.disk scene.session]) := by
  have woken : scene.session.wake scene.disk scene.watch now =
      (scene.session.refresh scene.disk, ⟨none⟩) := by
    rw [Session.wake, deadline]
    exact if_pos due
  rw [pass, woken, deadline]
  rfl

theorem pass_of_waiting (idle : scene.session.Idle)
    (waiting : ∀ moment, scene.watch.deadline = some moment → now ≤ moment) :
    scene.pass now = (scene, []) := by
  have woken : scene.session.wake scene.disk scene.watch now = (scene.session, scene.watch) := by
    unfold Session.wake
    split
    · rename_i moment deadline
      exact if_neg (Nat.not_lt.mpr (waiting moment deadline))
    · rfl
  rw [pass, woken]
  dsimp only
  rw [idle.drain]
  cases scene.watch.deadline <;> rfl

theorem meet_session (scene : Scene) (now : Nat) (happening : Happening) :
    (scene.meet now happening).session = scene.session := by
  cases happening <;> rfl

theorem pass_cases (idle : scene.session.Idle) (now : Nat) :
    (∃ moment, scene.watch.deadline = some moment ∧ moment < now ∧
      scene.pass now =
        (⟨(Reload.of moment scene.disk scene.session).after, scene.disk, ⟨none⟩⟩,
          [.of moment scene.disk scene.session])) ∨
    (∀ moment, scene.watch.deadline = some moment → now ≤ moment) ∧
      scene.pass now = (scene, []) := by
  by_cases waiting : ∀ moment, scene.watch.deadline = some moment → now ≤ moment
  · exact .inr ⟨waiting, pass_of_waiting idle waiting⟩
  · simp only [not_forall, Nat.not_le] at waiting
    obtain ⟨moment, deadline, due⟩ := waiting
    exact .inl ⟨moment, deadline, due, pass_of_due deadline due⟩

theorem Linked.append {before between after : Session} {early late : List Reload}
    (first : Linked before between early) (second : Linked between after late) :
    Linked before after (early ++ late) := by
  induction early generalizing before with
  | nil =>
      cases first
      exact second
  | cons reload rest ih => exact ⟨first.1, ih first.2⟩

structure Faithful (before after : Session) (reloads : List Reload) : Prop where
  linked : Linked before after reloads
  lawful : ∀ reload ∈ reloads, reload.Lawful
  idle : after.Idle

theorem Faithful.append {before between after : Session} {early late : List Reload}
    (first : Faithful before between early) (second : Faithful between after late) :
    Faithful before after (early ++ late) :=
  ⟨first.linked.append second.linked,
    List.forall_mem_append.mpr ⟨first.lawful, second.lawful⟩, second.idle⟩

theorem faithful_pass (idle : scene.session.Idle) (now : Nat) :
    Faithful scene.session (scene.pass now).1.session (scene.pass now).2 := by
  rcases pass_cases idle now with ⟨moment, -, -, passed⟩ | ⟨-, passed⟩
  · rw [passed]
    exact ⟨⟨rfl, rfl⟩, List.forall_mem_singleton.mpr (Reload.lawful_of idle), idle.refresh _⟩
  · rw [passed]
    exact ⟨rfl, List.forall_mem_nil _, idle⟩

theorem faithful_run (idle : scene.session.Idle) (story : List (Nat × Happening)) (horizon : Nat) :
    Faithful scene.session (scene.run story horizon).1.session (scene.run story horizon).2 := by
  induction story generalizing scene with
  | nil => exact faithful_pass idle horizon
  | cons first story ih =>
      obtain ⟨now, happening⟩ := first
      have early := faithful_pass idle now
      have same := meet_session (scene.pass now).1 now happening
      have late := @ih ((scene.pass now).1.meet now happening) (same ▸ early.idle)
      rw [same] at late
      exact early.append late

theorem Faithful.kept {before after : Session} {reloads : List Reload}
    (faithful : Faithful before after reloads) :
    after.history.trail.entries = before.history.trail.entries ∧
      after.history.trail.cursor = before.history.trail.cursor := by
  obtain ⟨linked, lawful, -⟩ := faithful
  induction reloads generalizing before with
  | nil =>
      cases linked
      exact ⟨rfl, rfl⟩
  | cons reload rest ih =>
      obtain ⟨rfl, linked⟩ := linked
      obtain ⟨first, lawful⟩ := List.forall_mem_cons.mp lawful
      obtain ⟨entries, cursor⟩ := ih linked lawful
      exact ⟨entries.trans first.entries, cursor.trans first.cursor⟩

variable {story : List (Nat × Happening)} {horizon : Nat}

theorem eq_of_told? {now time : Nat} {happening : Happening}
    (told : happening.told? now = some time) : time = now := by
  cases happening with
  | change disk => cases told
  | tell name =>
      rw [Happening.told?] at told
      split at told
      · exact (Option.some.inj told).symm
      · cases told

theorem le_of_mem_tellings {earliest : Nat} (later : ∀ time ∈ story.map Prod.fst, earliest ≤ time) :
    ∀ time ∈ tellings story, earliest ≤ time := by
  intro time inside
  obtain ⟨⟨now, happening⟩, listed, told⟩ := List.mem_filterMap.mp inside
  cases eq_of_told? told
  exact later _ (List.mem_map_of_mem listed)

theorem diskAt_of_lt (disk : Disk) {moment : Nat}
    (later : ∀ time ∈ story.map Prod.fst, moment < time) : diskAt disk story moment = disk := by
  have none : story.filterMap (fun (now, happening) =>
      match happening with
      | .change disk => if now ≤ moment then some disk else none
      | .tell _ => none) = [] := by
    refine List.filterMap_eq_nil_iff.mpr fun (time, happening) listed => ?_
    cases happening with
    | change disk =>
        exact if_neg (Nat.not_le.mpr (later time (List.mem_map_of_mem listed)))
    | tell name => rfl
  rw [diskAt, none]
  rfl

theorem diskAt_cons {now moment : Nat} (happening : Happening) (due : now ≤ moment) :
    diskAt scene.disk ((now, happening) :: story) moment =
      diskAt (scene.meet now happening).disk story moment := by
  cases happening with
  | change disk =>
      simp only [diskAt, List.filterMap_cons, if_pos due, List.getLastD_cons, meet]
  | tell name => rfl

theorem deadline_meet (happening : Happening) {last : Option Nat}
    (deadline : scene.watch.deadline = last.map (· + Watch.calm)) :
    (scene.meet now happening).watch.deadline =
      ((happening.told? now).or last).map (· + Watch.calm) := by
  cases happening with
  | change disk => exact deadline
  | tell name =>
      simp only [meet, Watch.notice, Layout.fileName?_settings, Option.some.injEq,
        Happening.told?, eq_comm (a := name)]
      split
      · rfl
      · exact deadline

theorem tellings_cons (now : Nat) (happening : Happening) (story : List (Nat × Happening)) :
    tellings ((now, happening) :: story) = (happening.told? now).toList ++ tellings story := by
  rw [tellings, List.filterMap_cons]
  cases happening.told? now <;> rfl

theorem settlings_meet {last : Option Nat} (happening : Happening)
    (waiting : ∀ time ∈ last, now ≤ time + Watch.calm)
    (apart : (last.toList ++ tellings ((now, happening) :: story)).IsChain fun earlier later =>
      later ≠ earlier + Watch.calm) :
    Watch.settlings (last.toList ++ tellings ((now, happening) :: story)) =
      Watch.settlings (((happening.told? now).or last).toList ++ tellings story) := by
  rw [tellings_cons] at apart ⊢
  cases told : happening.told? now with
  | none => rfl
  | some time =>
      cases eq_of_told? told
      cases last with
      | none => rfl
      | some time =>
          rw [told] at apart
          have another : now ≠ time + Watch.calm := (List.isChain_cons_cons.mp apart).1
          exact Watch.settlings_of_soon (Nat.lt_of_le_of_ne (waiting time rfl) another) _

theorem isChain_meet {last : Option Nat} {happening : Happening}
    (apart : (last.toList ++ tellings ((now, happening) :: story)).IsChain fun earlier later =>
      later ≠ earlier + Watch.calm) :
    (((happening.told? now).or last).toList ++ tellings story).IsChain fun earlier later =>
      later ≠ earlier + Watch.calm := by
  rw [tellings_cons] at apart
  cases told : happening.told? now with
  | none => rwa [told] at apart
  | some time =>
      rw [told] at apart
      cases last with
      | none => exact apart
      | some time => exact apart.tail

theorem schedule_meet {last : Option Nat} (happening : Happening)
    (waiting : ∀ time ∈ last, now ≤ time + Watch.calm)
    (later : ∀ time ∈ story.map Prod.fst, now ≤ time)
    (apart : (last.toList ++ tellings ((now, happening) :: story)).IsChain fun earlier later =>
      later ≠ earlier + Watch.calm) :
    schedule scene.disk ((now, happening) :: story)
        (last.toList ++ tellings ((now, happening) :: story)) horizon =
      schedule (scene.meet now happening).disk story
        (((happening.told? now).or last).toList ++ tellings story) horizon := by
  rw [schedule, settlings_meet happening waiting apart]
  refine List.map_congr_left fun moment inside => ?_
  obtain ⟨time, listed, rfl⟩ := Watch.exists_of_mem_settlings (List.mem_filter.mp inside).1
  rw [diskAt_cons happening]
  rcases List.mem_append.mp listed with pending | told
  · cases telling : happening.told? now with
    | none =>
        rw [telling, Option.none_or, Option.mem_toList] at pending
        exact waiting time pending
    | some now =>
        rw [telling, Option.some_or, Option.mem_toList] at pending
        cases Option.mem_some.mp pending
        rw [eq_of_told? telling]
        exact Nat.le_add_right _ _
  · exact Nat.le_add_right_of_le (le_of_mem_tellings later time told)

theorem schedule_due {time : Nat} (due : time + Watch.calm < now) (within : now ≤ horizon)
    (later : ∀ time ∈ story.map Prod.fst, now ≤ time) (disk : Disk) :
    schedule disk story (time :: tellings story) horizon =
      (time + Watch.calm, disk) :: schedule disk story (tellings story) horizon := by
  have late (telling : Nat) (inside : telling ∈ tellings story) : time + Watch.calm ≤ telling :=
    Nat.le_of_lt (Nat.lt_of_lt_of_le due (le_of_mem_tellings later telling inside))
  have before : time + Watch.calm < horizon := Nat.lt_of_lt_of_le due within
  rw [schedule, Watch.settlings_of_late late, List.filter_cons_of_pos (by simpa using before),
    List.map_cons, diskAt_of_lt disk fun time listed => Nat.lt_of_lt_of_le due (later time listed)]
  rfl

/-- The settings are read when they are to be read, and what is on the disk then is what is read. -/
theorem scheduled_run {last : Option Nat} (idle : scene.session.Idle)
    (deadline : scene.watch.deadline = last.map (· + Watch.calm))
    (ordered : (story.map Prod.fst ++ [horizon]).Pairwise (· ≤ ·))
    (apart : (last.toList ++ tellings story).IsChain fun earlier later =>
      later ≠ earlier + Watch.calm) :
    (scene.run story horizon).2.map (fun reload => (reload.moment, reload.disk)) =
      schedule scene.disk story (last.toList ++ tellings story) horizon := by
  induction story generalizing scene last with
  | nil =>
      rw [run]
      rcases pass_cases idle horizon with ⟨moment, gone, due, passed⟩ | ⟨waiting, passed⟩
      · rw [gone] at deadline
        obtain ⟨time, rfl, rfl⟩ := Option.map_eq_some_iff.mp deadline.symm
        rw [passed, Option.toList_some, List.singleton_append,
          schedule_due due (Nat.le_refl _) (List.forall_mem_nil _)]
        rfl
      · rw [passed]
        cases last with
        | none => rfl
        | some time =>
            have early : ¬time + Watch.calm < horizon := Nat.not_lt.mpr (waiting _ deadline)
            simp [schedule, tellings, Watch.settlings_singleton, early]
  | cons first story ih =>
      obtain ⟨now, happening⟩ := first
      obtain ⟨later, ordered⟩ := List.pairwise_cons.mp ordered
      have within : now ≤ horizon := later horizon (by simp)
      have after : ∀ time ∈ story.map Prod.fst, now ≤ time := fun time listed =>
        later time (List.mem_append_left _ listed)
      -- Whatever was read before, the rest goes on with what was told last.
      have rest {scene : Scene} {last : Option Nat} (idle : scene.session.Idle)
          (deadline : scene.watch.deadline = last.map (· + Watch.calm))
          (waiting : ∀ time ∈ last, now ≤ time + Watch.calm)
          (apart : (last.toList ++ tellings ((now, happening) :: story)).IsChain
            fun earlier later => later ≠ earlier + Watch.calm) :
          ((scene.meet now happening).run story horizon).2.map
              (fun reload => (reload.moment, reload.disk)) =
            schedule scene.disk ((now, happening) :: story)
              (last.toList ++ tellings ((now, happening) :: story)) horizon := by
        rw [schedule_meet happening waiting after apart]
        exact ih ((meet_session scene now happening).symm ▸ idle) (deadline_meet happening deadline)
          ordered (isChain_meet apart)
      rw [run]
      rcases pass_cases idle now with ⟨moment, gone, due, passed⟩ | ⟨waiting, passed⟩
      · rw [gone] at deadline
        obtain ⟨time, rfl, rfl⟩ := Option.map_eq_some_iff.mp deadline.symm
        have all : ∀ time ∈ ((now, happening) :: story).map Prod.fst, now ≤ time :=
          List.forall_mem_cons.mpr ⟨Nat.le_refl _, after⟩
        rw [passed, Option.toList_some, List.singleton_append, schedule_due due within all]
        refine congrArg _ (@rest _ none (idle.refresh _) rfl ?_ apart.tail)
        exact fun _ none => nomatch none
      · rw [passed]
        refine rest idle deadline (fun time told => waiting _ ?_) apart
        rw [deadline, told]
        rfl

/-- Whatever other programs leave on the disk and whenever the watch is told of it, the settings are
read once for each group of tellings, a while after the last one, as long as no telling comes just
when another has waited for a while. Each reading takes over what is in the file then and tells once
what differs; nothing else changes the session, and no reading changes where its history is. -/
theorem settled_run {session : Session} (disk : Disk) {story : List (Nat × Happening)}
    {horizon : Nat} (idle : session.Idle)
    (ordered : (story.map Prod.fst ++ [horizon]).Pairwise (· ≤ ·))
    (apart : (tellings story).IsChain fun earlier later => later ≠ earlier + Watch.calm) :
    let after := (start session disk).run story horizon
    after.2.map (fun reload => (reload.moment, reload.disk)) =
        schedule disk story (tellings story) horizon ∧
      Faithful session after.1.session after.2 ∧
      after.1.session.history.trail.entries = session.history.trail.entries ∧
      after.1.session.history.trail.cursor = session.history.trail.cursor := by
  have idle : (start session disk).session.Idle := idle
  have faithful := faithful_run idle story horizon
  exact ⟨@scheduled_run _ _ _ none idle rfl ordered apart, faithful, faithful.kept⟩

def writtenBag : Bag :=
  (Bag.empty.set "maximumHistoryEntries" (.integer 20)).1

def writtenDisk : Disk :=
  ⟨[(["globalSettings.json"], .file (Document.contents writtenBag))], []⟩

theorem read_writtenDisk :
    Document.read writtenDisk ⟨"/globalSettings.json"⟩ = .ok (some writtenBag) := by
  have held : writtenBag.Held :=
    Bag.held_empty.set _ ⟨⟨by decide, by decide⟩, trivial, Nat.zero_le _⟩
  have whole : writtenBag.NoDoubles := Bag.noDoubles_empty.set _ trivial
  have written : (⟨[], []⟩ : Disk).replace ⟨"/globalSettings.json"⟩ (Document.contents writtenBag) =
      (writtenDisk, .ok ()) := rfl
  rw [Document.read_replaced written, Document.ofBytes_contents held whole]

def newSession : Session :=
  let settings := Document.ofBag ⟨"/globalSettings.json"⟩ .empty true
  let history := Document.ofBag ⟨"/globalHistory.json"⟩ .empty true
  ⟨⟨⟨"/"⟩⟩, settings, .ofDocument history 100, []⟩

def writtenStory : List (Nat × Happening) :=
  [(0, .change ⟨[(["globalSettings.json"], .file ⟨#[]⟩)], []⟩), (0, .tell "globalSettings.json"),
    (40, .tell "globalHistory.json"), (90, .change writtenDisk), (90, .tell "globalSettings.json"),
    (300, .change ⟨[], []⟩), (300, .tell "globalSettings.json")]

theorem settled_writtenStory :
    ∃ after first second,
      (start newSession ⟨[], []⟩).run writtenStory 1000 = (after, [first, second]) ∧
      (first.moment = 190 ∧ ∃ names, first.told = [.settings names] ∧
        Bag.Tells names .empty writtenBag) ∧
      (second.moment = 400 ∧ second.told = []) ∧
      after.session.settings.bag = writtenBag ∧ after.session.history.trail.limit = 20 := by
  have idle : newSession.Idle := ⟨rfl, rfl, rfl⟩
  have run := @settled_run newSession ⟨[], []⟩ writtenStory 1000 idle (by decide) (by decide)
  revert run
  generalize (start newSession ⟨[], []⟩).run writtenStory 1000 = after
  obtain ⟨scene, reloads⟩ := after
  rintro ⟨scheduled, ⟨linked, lawful, -⟩, -⟩
  have moments : reloads.map (fun reload => (reload.moment, reload.disk)) =
    [(190, writtenDisk), (400, ⟨[], []⟩)] := scheduled.trans rfl
  obtain ⟨first, rest, rfl, here, moments⟩ := List.map_eq_cons_iff.mp moments
  obtain ⟨second, rest, rfl, there, moments⟩ := List.map_eq_cons_iff.mp moments
  cases List.map_eq_nil_iff.mp moments
  obtain ⟨earlier, earlierDisk⟩ := Prod.mk.inj here
  obtain ⟨later, laterDisk⟩ := Prod.mk.inj there
  obtain ⟨begun, next, final⟩ := linked
  obtain ⟨lawfulFirst, lawful⟩ := List.forall_mem_cons.mp lawful
  have lawfulSecond := lawful second List.mem_cons_self
  have found : Document.read first.disk first.before.layout.settings = .ok (some writtenBag) := by
    rw [earlierDisk, begun]
    exact read_writtenDisk
  have missing (file : Bag) :
      Document.read second.disk second.before.layout.settings ≠ .ok (some file) := by
    rw [laterDisk, next, lawfulFirst.layout, begun]
    exact fun found => nomatch found
  have differ : ¬first.before.settings.bag.AgreeOn writtenBag "maximumHistoryEntries" := by
    rw [begun]
    exact Bool.false_ne_true
  obtain ⟨⟨names, told, tells, -⟩, limit⟩ := lawfulFirst.told writtenBag found ⟨_, differ⟩
  rw [begun] at tells
  have last : scene.session = first.after := by
    rw [final, lawfulSecond.untouched missing, next]
  refine ⟨scene, first, second, rfl, ⟨earlier, names, told, tells⟩, ⟨later, ?_⟩, ?_, ?_⟩
  · exact (lawfulSecond.quiet fun file found => absurd found (missing file)).1
  · rw [last, lawfulFirst.taken writtenBag found]
  · rw [last, limit, lawfulFirst.taken writtenBag found]
    decide +kernel

end Scene

end Waymark
