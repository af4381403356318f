import Waymark.Proofs.Document.Covered
/-!
# Answered calls

A call that returns well finds in the file what was saved before it was made, unless a write had
failed since the last save.
-/

namespace Waymark.Exchange

variable {exchange next : Exchange} {move : Move}

theorem filed_grows (tracked : exchange.Tracked) (step : Step exchange move next) :
    ∀ filed ∈ exchange.filed, ∃ later ∈ next.filed, filed ≤ later := by
  intro filed there
  cases effect_of_step step with
  | change | enter | look => exact ⟨filed, there, Nat.le_refl _⟩
  | save unmoved | order unmoved => exact ⟨filed, unmoved.filed ▸ there, Nat.le_refl _⟩
  | @finish party number bag trouble begun =>
      unfold finish
      rw [(unmoved_release _ _ _).filed, settle_eq]
      dsimp only
      split
      · exact ⟨number, rfl, (tracked.snapshot _ begun _ rfl).2 filed there⟩
      · exact ⟨filed, there, Nat.le_refl _⟩

theorem saved_grows (tracked : exchange.Tracked) (step : Step exchange move next) :
    ∀ saved ∈ exchange.saved, ∃ later ∈ next.saved, saved ≤ later := by
  intro saved there
  cases effect_of_step step with
  | change | enter | look => exact ⟨saved, there, Nat.le_refl _⟩
  | save unmoved =>
      rw [unmoved.saved]
      exact ⟨exchange.number, rfl, tracked.saved_le saved there⟩
  | order unmoved => exact ⟨saved, unmoved.saved ▸ there, Nat.le_refl _⟩
  | finish trouble begun =>
      unfold finish
      rw [(unmoved_release _ _ _).saved, settle_eq]
      exact ⟨saved, there, Nat.le_refl _⟩

def IsOut (exchange : Exchange) (call : Call) : Prop :=
  call ∈ exchange.asked ∨ .call call ∈ exchange.waiting ∨
    ∃ write ∈ exchange.lock, write.party = .call call

theorem isOut_want {party : Party} {call : Call} (out : (exchange.want party).IsOut call) :
    exchange.IsOut call ∨ party = .call call := by
  rcases out with asked | waiting | writing
  · exact .inl (.inl asked)
  · rcases List.mem_append.mp waiting with old | new
    · exact .inl (.inr (.inl old))
    · exact .inr (List.mem_singleton.mp new).symm
  · exact .inl (.inr (.inr writing))

theorem isOut_fire (task : Task) {call : Call} (out : (exchange.fire task).IsOut call) :
    exchange.IsOut call :=
  (isOut_want out).resolve_right nofun

theorem isOut_release {party : Party} {result : Except Failure Unit} {call : Call}
    (out : (exchange.release party result).IsOut call) : exchange.IsOut call := by
  cases party <;> exact out

theorem isOut_settle {number : Nat} {course : Disk.Course} {call : Call}
    (out : (exchange.settle number course).IsOut call) : exchange.IsOut call := by
  rw [settle_eq] at out
  exact out.imp_right fun others => .inl (others.resolve_right nofun)

def purpose? : Move → Option Purpose
  | .save _ => some .save
  | .flush => some .flush
  | .drop => some .drop
  | _ => none

theorem isOut_step (step : Step exchange move next) {call : Call} (out : next.IsOut call) :
    exchange.IsOut call ∨ purpose? move = some call.purpose ∧ call.needs = next.saved := by
  cases step with
  | set | remove => exact .inl out
  | save delay _ =>
      rw [(exchange.unmoved_save delay).saved]
      unfold save at out
      split at out
      · rcases isOut_want out with old | new
        · exact .inl old
        · cases new
          exact .inr ⟨rfl, rfl⟩
      · exact .inl out
  | flush _ =>
      rw [exchange.unmoved_flush.saved]
      unfold flush at out
      split at out
      · rcases isOut_want out with old | new
        · exact .inl old
        · cases new
          exact .inr ⟨rfl, rfl⟩
      · rcases out with asked | others
        · rcases List.mem_append.mp asked with old | new
          · exact .inl (.inl old)
          · rw [List.mem_singleton.mp new]
            exact .inr ⟨rfl, rfl⟩
        · exact .inl (.inr others)
  | drop =>
      rcases isOut_want (show (exchange.want _).IsOut call from out) with old | new
      · exact .inl old
      · cases new
        exact .inr ⟨rfl, rfl⟩
  | @take request rest deadline now idle first =>
      cases request with
      | schedule delay => exact .inl out
      | flush => exact .inl (isOut_fire .answering out)
  | expire => exact .inl (isOut_fire .idle out)
  | @stop deadline _ _ _ =>
      cases deadline with
      | none => exact .inl out
      | some time => exact .inl (isOut_fire .stopped out)
  | answer =>
      rcases out with asked | waiting | writing
      · exact .inl (.inl (List.mem_of_mem_drop asked))
      · rcases List.mem_append.mp waiting with old | new
        · exact .inl (.inr (.inl old))
        · obtain ⟨other, first, same⟩ := List.mem_map.mp new
          cases same
          exact .inl (.inl (List.mem_of_mem_take first))
      · exact .inl (.inr (.inr writing))
  | @pass party before after free clean here =>
      rcases isOut_release out with asked | waiting | writing
      · exact .inl (.inl asked)
      · refine .inl (.inr (.inl ?_))
        rw [here]
        exact List.mem_append.mpr ((List.mem_append.mp waiting).imp_right (List.mem_cons_of_mem _))
      · exact .inl (.inr (.inr writing))
  | @begin party before after free pending here =>
      refine .inl ?_
      rcases out with asked | waiting | ⟨write, held, same⟩
      · exact .inl asked
      · refine .inr (.inl ?_)
        rw [here]
        exact List.mem_append.mpr ((List.mem_append.mp waiting).imp_right (List.mem_cons_of_mem _))
      · cases held
        refine .inr (.inl ?_)
        rw [here, ← same]
        exact List.mem_append_right _ List.mem_cons_self
  | read begun =>
      refine .inl ?_
      rcases out with asked | waiting | ⟨write, held, same⟩
      · exact .inl asked
      · exact .inr (.inl waiting)
      · cases held
        exact .inr (.inr ⟨_, begun, same⟩)
  | finish trouble begun => exact .inl (isOut_settle (isOut_release out))

theorem answer_cases (step : Step exchange move next) {answer : Answer}
    (given : answer ∈ next.answers) :
    answer ∈ exchange.answers ∨
      (exchange.lock = none ∧ exchange.document.isPending = false ∧
        exchange.IsOut answer.call ∧ answer.result = .ok () ∧
        answer.wasMissed = exchange.isMissed) ∨
      ∃ number bag, exchange.lock = some ⟨.call answer.call, some (number, bag)⟩ ∧
        next.lock = none ∧
        (answer.result = .ok () → next.filed = some number ∧ answer.wasMissed = exchange.isMissed) ∧
        (answer.result = .ok () ∨ next.hasFailed = true) := by
  cases step with
  | set | remove | drop | expire | answer | begin | read => exact .inl given
  | save delay _ =>
      unfold save at given
      split at given <;> exact .inl given
  | flush _ =>
      unfold flush at given
      split at given <;> exact .inl given
  | @take request rest deadline now idle first => cases request <;> exact .inl given
  | @stop deadline _ _ _ => cases deadline <;> exact .inl given
  | @pass party before after free clean here =>
      cases party with
      | task => exact .inl given
      | call call =>
          rcases List.mem_cons.mp given with new | old
          · rw [new]
            refine .inr (.inl ⟨free, clean, .inr (.inl ?_), rfl, rfl⟩)
            rw [here]
            exact List.mem_append_right _ List.mem_cons_self
          · exact .inl old
  | @finish party number bag trouble begun =>
      unfold finish at given ⊢
      generalize exchange.disk.replaceCourse trouble exchange.document.path
        (Document.contents bag) = course at given ⊢
      cases party with
      | task => exact .inl (by simpa [release, settle_eq] using given)
      | call call =>
          rcases List.mem_cons.mp given with new | old
          · rw [new]
            refine .inr (.inr ⟨number, bag, begun, ?_, ?_, ?_⟩)
            · rw [(unmoved_release _ _ _).lock, settle_eq]
            · intro ok
              have ok : course.result = .ok () := ok
              simp [release, settle, ok]
            · cases result : course.result with
              | ok done => exact .inl rfl
              | error failure => exact .inr (by simp [release, settle, result])
          · rw [settle_eq] at old
            exact .inl old

structure Answerable (exchange : Exchange) : Prop where
  calls : ∀ call, exchange.IsOut call → ∀ needs ∈ call.needs,
    ∃ saved ∈ exchange.saved, needs ≤ saved
  own : ∀ write ∈ exchange.lock, ∀ call, write.party = .call call →
    ∀ snapshot ∈ write.snapshot, ∀ needs ∈ call.needs, needs ≤ snapshot.1
  answers : ∀ answer ∈ exchange.answers, answer.result = .ok () → answer.wasMissed = false →
    ∀ needs ∈ answer.call.needs, exchange.HasFiled needs
  quiet : exchange.hasFailed = false →
    ∀ answer ∈ exchange.answers, answer.result = .ok () ∧ answer.wasMissed = false

theorem answerable_start (document : Document) (disk : Disk) :
    (start document disk).Answerable where
  calls := by
    intro call out
    rcases out with asked | waiting | ⟨write, held, -⟩
    · cases asked
    · cases waiting
    · cases held
  own := nofun
  answers := nofun
  quiet := nofun

theorem HasFiled.grow {number : Nat} (filed : exchange.HasFiled number)
    (grows : ∀ filed ∈ exchange.filed, ∃ later ∈ next.filed, filed ≤ later) :
    next.HasFiled number := by
  obtain ⟨old, there, newer⟩ := filed
  obtain ⟨later, found, more⟩ := grows old there
  exact ⟨later, found, Nat.le_trans newer more⟩

theorem Answerable.calls_step (answerable : exchange.Answerable) (tracked : exchange.Tracked)
    (step : Step exchange move next) : ∀ call, next.IsOut call → ∀ needs ∈ call.needs,
      ∃ saved ∈ next.saved, needs ≤ saved := by
  intro call out needs there
  rcases isOut_step step out with old | new
  · obtain ⟨saved, found, newer⟩ := answerable.calls call old needs there
    obtain ⟨later, now, more⟩ := saved_grows tracked step saved found
    exact ⟨later, now, Nat.le_trans newer more⟩
  · exact ⟨needs, new.2 ▸ there, Nat.le_refl _⟩

theorem Answerable.own_step (answerable : exchange.Answerable) (tracked : exchange.Tracked)
    (step : Step exchange move next) : ∀ write ∈ next.lock, ∀ call, write.party = .call call →
      ∀ snapshot ∈ write.snapshot, ∀ needs ∈ call.needs, needs ≤ snapshot.1 := by
  cases effect_of_step step with
  | change => exact answerable.own
  | save unmoved | order unmoved =>
      rw [unmoved.lock]
      exact answerable.own
  | enter =>
      rintro write ⟨⟩ call - snapshot ⟨⟩
  | look begun =>
      rintro write ⟨⟩ call same snapshot ⟨⟩ needs there
      obtain ⟨saved, found, newer⟩ := answerable.calls call (.inr (.inr ⟨_, begun, same⟩)) needs there
      exact Nat.le_trans newer (tracked.saved_le saved found)
  | finish trouble begun =>
      unfold finish
      rw [(unmoved_release _ _ _).lock, settle_eq]
      exact nofun

theorem hasFailed_stays (step : Step exchange move next) (failed : exchange.hasFailed = true) :
    next.hasFailed = true := by
  cases effect_of_step step with
  | change | enter | look => exact failed
  | save unmoved | order unmoved => exact unmoved.hasFailed.trans failed
  | finish trouble begun =>
      unfold finish
      rw [(unmoved_release _ _ _).hasFailed, settle_eq]
      dsimp only
      rw [failed, Bool.or_true]

theorem Answerable.answers_step (answerable : exchange.Answerable) (tracked : exchange.Tracked)
    (step : Step exchange move next) : ∀ answer ∈ next.answers, answer.result = .ok () →
      answer.wasMissed = false → ∀ needs ∈ answer.call.needs, next.HasFiled needs := by
  intro answer given ok notMissed needs there
  have grows := filed_grows tracked step
  rcases answer_cases step given with old | ⟨free, clean, out, -, missed⟩ |
    ⟨number, bag, held, -, wrote, -⟩
  · exact (answerable.answers answer old ok notMissed needs there).grow grows
  · obtain ⟨saved, found, newer⟩ := answerable.calls answer.call out needs there
    -- The call found nothing to write, so the saved state was written or missed before.
    rcases tracked.covered saved found with written | pending | lost | ⟨write, held, -⟩
    · obtain ⟨filed, now, more⟩ := written
      exact HasFiled.grow ⟨filed, now, Nat.le_trans newer more⟩ grows
    · rw [clean] at pending
      cases pending
    · rw [← missed, notMissed] at lost
      cases lost
    · rw [free] at held
      cases held
  · exact ⟨number, (wrote ok).1, answerable.own _ held _ rfl _ rfl needs there⟩

theorem Answerable.quiet_step (answerable : exchange.Answerable) (tracked : exchange.Tracked)
    (step : Step exchange move next) (unfailed : next.hasFailed = false) :
    ∀ answer ∈ next.answers, answer.result = .ok () ∧ answer.wasMissed = false := by
  intro answer given
  have before : exchange.hasFailed = false := by
    cases failed : exchange.hasFailed with
    | false => rfl
    | true => exact absurd (hasFailed_stays step failed) (by simp [unfailed])
  have notMissed : exchange.isMissed = false := by
    cases missed : exchange.isMissed with
    | false => rfl
    | true => exact absurd (tracked.missed missed).2.2 (by simp [before])
  rcases answer_cases step given with old | ⟨-, -, -, ok, missed⟩ |
    ⟨number, bag, -, -, wrote, outcome⟩
  · exact answerable.quiet before answer old
  · exact ⟨ok, missed.trans notMissed⟩
  · rcases outcome with ok | failed
    · exact ⟨ok, (wrote ok).2.trans notMissed⟩
    · rw [unfailed] at failed
      cases failed

theorem answerable_step (answerable : exchange.Answerable) (tracked : exchange.Tracked)
    (step : Step exchange move next) : next.Answerable where
  calls := answerable.calls_step tracked step
  own := answerable.own_step tracked step
  answers := answerable.answers_step tracked step
  quiet := answerable.quiet_step tracked step

end Waymark.Exchange
