import MailDispatch.Proofs.Timeline.Runner

/-! # The phases of a periodic job

Between two executions all runs are as planned and the clock has not passed the start of the
next one. During an execution the clock has not passed its end. So whatever the job does next,
it does at the time planned for it, and after a signal it only ends what it has begun.
-/
namespace MailDispatch.Cleanup.Rota
open Timeline

/-- The first executions, when all of them are over. -/
def runs (r : Rota) (n : Nat) : List Run :=
  (List.range n).map fun k => ⟨r.start k, some (r.ends k)⟩

/-- The runs when the execution after the first ones is in progress. -/
def runsDuring (r : Rota) (n : Nat) : List Run := r.runs n ++ [⟨r.start n, none⟩]

@[simp] theorem length_runs (r : Rota) (n : Nat) : (r.runs n).length = n := by simp [runs]

@[simp] theorem length_runsDuring (r : Rota) (n : Nat) : (r.runsDuring n).length = n + 1 := by
  simp [runsDuring]

theorem runs_succ (r : Rota) (n : Nat) :
    r.runs (n + 1) = r.runs n ++ [⟨r.start n, some (r.ends n)⟩] := by
  simp [runs, List.range_succ]

theorem endRun_runsDuring (r : Rota) (n : Nat) :
    endRun (r.ends n) (r.runsDuring n) = r.runs (n + 1) := by
  have hlast : n < (r.runsDuring n).length := by simp
  rw [endRun, length_runsDuring, Nat.add_sub_cancel, List.modify_eq_take_cons_drop hlast, runs_succ]
  simp [runsDuring]

theorem starts_runs (r : Rota) (n : Nat) :
    (r.runs n).map Run.start = (List.range n).map r.start := by
  rw [runs, List.map_map]
  rfl

theorem starts_runsDuring (r : Rota) (n : Nat) :
    (r.runsDuring n).map Run.start = (List.range (n + 1)).map r.start := by
  rw [runsDuring, List.map_append, starts_runs, List.range_succ, List.map_append]
  rfl

/-- Exactly the first executions start no later than at `c`. -/
structure Until (r : Rota) (n c : Nat) : Prop where
  started : ∀ k < n, r.start k ≤ c
  next : c ≤ r.start n

theorem Until.of_ends {r : Rota} {n c : Nat} (hfrom : r.start n ≤ c) (hto : c ≤ r.ends n) :
    r.Until (n + 1) c where
  started _ hk := Nat.le_trans (r.start_mono (Nat.le_of_lt_succ hk)) hfrom
  next := Nat.le_trans hto (r.ends_le_start n)

theorem start_le_free (r : Rota) {k n : Nat} (h : k < n) : r.start k ≤ r.free n := by
  obtain ⟨m, rfl⟩ : ∃ m, n = m + 1 := ⟨n - 1, by omega⟩
  exact Nat.le_trans (r.start_mono (Nat.le_of_lt_succ h)) (r.start_le_ends m)

theorem Until.of_free {r : Rota} {n c : Nat} (hfrom : r.free n ≤ c) (hto : c ≤ r.start n) :
    r.Until n c where
  started _ hk := Nat.le_trans (r.start_le_free hk) hfrom
  next := hto

end MailDispatch.Cleanup.Rota

namespace MailDispatch.Timeline.Runner
open Shutdown Cleanup

variable {σ : Type} {r : Rota} {w v : Runner σ} {n : Nat}

/-- What stays the same, and what is kept of signals and results, while a job is watched. -/
structure Kept (r : Rota) (w : Runner σ) : Prop where
  period : w.job.period = r.period
  work : w.job.chore.work = r.work
  begun : r.begins ≤ w.timeline.now
  signalled : w.timeline.coordinator.isSignalled w.handle = w.signalledAt.isSome
  after : ∀ c, w.signalledAt = some c → r.begins ≤ c
  outcomes : w.outcomes.length = w.job.runs.length
  results : ∀ k x, k < w.job.runs.length → w.job.chore.result? k = some x → w.outcomes[k]? = some x

/-- The first executions are over, and the next one has not started. -/
structure Idle (r : Rota) (n : Nat) (w : Runner σ) : Prop where
  phase : w.job.phase = .idle (r.due n)
  runs : w.job.runs = r.runs n
  exit : w.job.exit = none
  notices : w.notices = []
  errors : complaints w.logged = w.outcomes.filterMap (resultEvent? w.job.name)
  free : r.free n ≤ w.timeline.now
  early : w.signalledAt = none → w.timeline.now ≤ r.start n
  late : ∀ c, w.signalledAt = some c → r.Until n c ∧ w.timeline.now = max c (r.free n)

structure Busy (r : Rota) (n : Nat) (w : Runner σ) : Prop where
  phase : w.job.phase = .busy (r.due (n + 1)) (r.ends n)
  runs : w.job.runs = r.runsDuring n
  exit : w.job.exit = none
  notices : w.notices = []
  errors : ∃ finished, w.outcomes = finished ++ [w.job.pending] ∧
    complaints w.logged = finished.filterMap (resultEvent? w.job.name)
  begun : r.start n ≤ w.timeline.now
  early : w.timeline.now ≤ r.ends n
  late : ∀ c, w.signalledAt = some c → r.start n ≤ c ∧ c ≤ w.timeline.now

structure Stopped (r : Rota) (n : Nat) (w : Runner σ) : Prop where
  phase : w.job.phase = .stopped
  runs : w.job.runs = r.runs n
  exit : w.job.exit = some .returned
  notified : w.timeline.coordinator.isNotified w.handle = true
  errors : complaints w.logged = w.outcomes.filterMap (resultEvent? w.job.name)
  returned : ∃ c, w.signalledAt = some c ∧ r.Until n c ∧ w.notices = [max c (r.free n)] ∧
    max c (r.free n) ≤ w.timeline.now

inductive InPhase (r : Rota) (w : Runner σ) : Prop where
  | idle (n : Nat) (h : Idle r n w)
  | busy (n : Nat) (h : Busy r n w)
  | stopped (n : Nat) (h : Stopped r n w)

/-! ## While others go on, and while time passes -/

theorem signalledAt_act (w : Runner σ) {tl : Timeline σ} (now : tl.now = w.timeline.now) {c : Nat}
    (h : (w.act tl).signalledAt = some c) :
    w.signalledAt = some c ∨ w.signalledAt = none ∧ c = w.timeline.now := by
  cases hbefore : w.signalledAt with
  | some d =>
    simp only [act, hbefore, Option.some_or] at h
    exact .inl h
  | none =>
    simp only [act, hbefore, Option.none_or, signalTime] at h
    split at h
    · exact .inr ⟨rfl, (Option.some.inj h).symm.trans now⟩
    · cases h

theorem signalledAt_of_act (w : Runner σ) {tl : Timeline σ}
    (h : (w.act tl).signalledAt = none) : w.signalledAt = none :=
  (Option.or_eq_none_iff.mp h).1

theorem Kept.act (k : Kept r w) {tl : Timeline σ} (now : tl.now = w.timeline.now)
    (signalled : w.timeline.coordinator.isSignalled w.handle = true →
      tl.coordinator.isSignalled w.handle = true) : Kept r (w.act tl) where
  period := k.period
  work := k.work
  begun := Nat.le_trans k.begun (Nat.le_of_eq now.symm)
  after := by
    intro c hc
    rcases signalledAt_act w now hc with hbefore | ⟨-, rfl⟩
    · exact k.after c hbefore
    · exact k.begun
  signalled := by
    change tl.coordinator.isSignalled w.handle = (w.signalledAt.or (signalTime tl w.handle)).isSome
    rw [k.signalled] at signalled
    cases hbefore : w.signalledAt with
    | some c => simp [signalled, hbefore]
    | none =>
      unfold signalTime
      cases tl.coordinator.isSignalled w.handle with
      | true | false => rfl
  outcomes := k.outcomes
  results := k.results

theorem Idle.act (h : Idle r n w) {tl : Timeline σ} (now : tl.now = w.timeline.now) :
    Idle r n (w.act tl) where
  phase := h.phase
  runs := h.runs
  exit := h.exit
  notices := h.notices
  errors := h.errors
  free := Nat.le_trans h.free (Nat.le_of_eq now.symm)
  early := by
    intro quiet
    change tl.now ≤ _
    rw [now]
    exact h.early (signalledAt_of_act w quiet)
  late := by
    intro c hc
    change _ ∧ tl.now = _
    rw [now]
    rcases signalledAt_act w now hc with hbefore | ⟨quiet, rfl⟩
    · exact h.late c hbefore
    · exact ⟨.of_free h.free (h.early quiet), (Nat.max_eq_left h.free).symm⟩

theorem Busy.act (h : Busy r n w) {tl : Timeline σ} (now : tl.now = w.timeline.now) :
    Busy r n (w.act tl) where
  phase := h.phase
  runs := h.runs
  exit := h.exit
  notices := h.notices
  errors := h.errors
  begun := Nat.le_trans h.begun (Nat.le_of_eq now.symm)
  early := Nat.le_trans (Nat.le_of_eq now) h.early
  late := by
    intro c hc
    change _ ∧ c ≤ tl.now
    rw [now]
    rcases signalledAt_act w now hc with hbefore | ⟨-, rfl⟩
    · exact h.late c hbefore
    · exact ⟨h.begun, Nat.le_refl _⟩

theorem Stopped.act (h : Stopped r n w) {tl : Timeline σ} (now : tl.now = w.timeline.now)
    (notified : w.timeline.coordinator.isNotified w.handle = true →
      tl.coordinator.isNotified w.handle = true) : Stopped r n (w.act tl) where
  phase := h.phase
  runs := h.runs
  exit := h.exit
  notified := notified h.notified
  errors := h.errors
  returned := by
    obtain ⟨c, hc, huntil, hnotices, hpast⟩ := h.returned
    refine ⟨c, ?_, huntil, hnotices, ?_⟩
    · simp [Runner.act, hc]
    · exact Nat.le_trans hpast (Nat.le_of_eq now.symm)

theorem Kept.wait (k : Kept r w) {t : Nat} (later : w.timeline.now < t) : Kept r (w.wait t) :=
  ⟨k.period, k.work, Nat.le_trans k.begun (Nat.le_of_lt later), k.signalled, k.after, k.outcomes,
    k.results⟩

/-- A signal gives the job something to do between executions. -/
theorem Idle.quiet (k : Kept r w) (h : Idle r n w) (rest : w.AtRest) : w.signalledAt = none := by
  have hnext := pollJob_eq_none_iff.mp rest
  rw [Timeline.nextAct, h.phase, k.signalled] at hnext
  cases hsignal : w.signalledAt with
  | none => rfl
  | some c => simp [hsignal, Phase.poll] at hnext

theorem Idle.wait (k : Kept r w) (h : Idle r n w) {t : Nat} (later : w.timeline.now < t)
    (rest : w.AtRest) (asleep : ∀ d, w.job.phase.nextTime = some d → t ≤ d) :
    Idle r n (w.wait t) := by
  have hdue : t ≤ r.due n := asleep _ (by rw [h.phase]; rfl)
  have hquiet := h.quiet k rest
  exact
    { h with
      free := Nat.le_trans h.free (Nat.le_of_lt later)
      early := fun _ => Nat.le_trans hdue (r.due_le_start n)
      late := fun c hc => by rw [show w.signalledAt = some c from hc] at hquiet; cases hquiet }

theorem Busy.wait (h : Busy r n w) {t : Nat} (later : w.timeline.now < t)
    (asleep : ∀ d, w.job.phase.nextTime = some d → t ≤ d) : Busy r n (w.wait t) :=
  { h with
    begun := Nat.le_trans h.begun (Nat.le_of_lt later)
    early := asleep _ (by rw [h.phase]; rfl)
    late := fun c hc => ⟨(h.late c hc).1, Nat.le_trans (h.late c hc).2 (Nat.le_of_lt later)⟩ }

theorem Stopped.wait (h : Stopped r n w) {t : Nat} (later : w.timeline.now < t) :
    Stopped r n (w.wait t) :=
  { h with
    returned := by
      obtain ⟨c, hc, huntil, hnotices, hpast⟩ := h.returned
      exact ⟨c, hc, huntil, hnotices, Nat.le_trans hpast (Nat.le_of_lt later)⟩ }

/-! ## The steps of the job itself -/

section
variable {a : Act} {job : Job} {tl : Timeline σ} (moves : Moves w.timeline w.handle w.job a job tl)
include moves

theorem Kept.go (k : Kept r w) : Kept r (w.go a job tl) := by
  have hsignalled := (same_of_moves moves w.handle).1.trans k.signalled
  have hbegun := Nat.le_trans k.begun (Nat.le_of_eq (same_of_moves moves w.handle).2.symm)
  cases moves with
  | start phase quiet past =>
    refine ⟨k.period, k.work, hbegun, hsignalled, k.after, ?_, ?_⟩
    · simp [Runner.go, k.outcomes]
    · intro i x hi hx
      simp only [Runner.go, List.length_append, List.length_singleton] at hi ⊢
      obtain hold | rfl := Nat.lt_succ_iff_lt_or_eq.mp hi
      · rw [List.getElem?_append_left (k.outcomes ▸ hold)]
        exact k.results i x hold hx
      · rw [← k.outcomes, List.getElem?_concat_length, result_execute w.timeline hx]
  | finish phase past =>
    have hlength : (endRun w.timeline.now w.job.runs).length = w.job.runs.length :=
      List.length_modify ..
    exact ⟨k.period, k.work, hbegun, hsignalled, k.after, k.outcomes.trans hlength.symm,
      fun i x hi => k.results i x (hlength ▸ hi)⟩
  | stop phase signalled =>
    exact ⟨k.period, k.work, hbegun, hsignalled, k.after, k.outcomes, k.results⟩

/-- Between executions a job either starts the next one, at the time planned for it, or stops. -/
theorem Idle.go (k : Kept r w) (h : Idle r n w) : InPhase r (w.go a job tl) := by
  have hnow := (same_of_moves moves w.handle).2
  have herrors : complaints (w.logged ++ w.records a) =
      complaints w.logged ++ complaints (w.records a) := complaints_append _ _
  rw [complaints_records] at herrors
  cases moves with
  | @start due phase quiet past =>
    have hquiet : w.signalledAt = none := by
      rw [k.signalled] at quiet
      simpa using quiet
    obtain rfl : r.due n = due := by
      rw [h.phase] at phase
      exact Phase.idle.inj phase
    have hstart : w.timeline.now = r.start n :=
      Nat.le_antisymm (h.early hquiet) (Nat.max_le.mpr ⟨past, h.free⟩)
    have hduration : w.job.duration = r.work n := by
      rw [Job.duration_eq, k.work, h.runs, Rota.length_runs]
    refine .busy n
      { phase := ?_, runs := ?_, exit := h.exit, notices := h.notices
        errors := ⟨w.outcomes, rfl, ?_⟩, begun := ?_, early := ?_, late := ?_ }
    · change Phase.busy _ _ = _
      rw [k.period, hstart, hduration, Rota.due_succ]
      rfl
    · change w.job.runs ++ [_] = _
      rw [h.runs, hstart]
      rfl
    · exact herrors.trans (by rw [h.errors]; exact List.append_nil _)
    · exact Nat.le_of_eq (hnow.trans hstart).symm
    · exact Nat.le_trans (Nat.le_of_eq (hnow.trans hstart)) (r.start_le_ends n)
    · intro c hc
      rw [show (w.go .start _ _).signalledAt = w.signalledAt from rfl, hquiet] at hc
      cases hc
  | finish phase past =>
    rw [h.phase] at phase
    cases phase
  | stop phase signalled =>
    obtain ⟨c, hc⟩ : ∃ c, w.signalledAt = some c := by
      rw [k.signalled] at signalled
      exact Option.isSome_iff_exists.mp signalled
    obtain ⟨huntil, hpast⟩ := h.late c hc
    refine .stopped n
      { phase := rfl, runs := h.runs, exit := rfl, notified := ?_
        errors := ?_, returned := ⟨c, hc, huntil, ?_, ?_⟩ }
    · change (notify w.handle _).coordinator.isNotified w.handle = true
      rw [coordinator_notify]
      exact Coordinator.isNotified_notify_of_isSignalled signalled
    · exact herrors.trans (by rw [h.errors]; exact List.append_nil _)
    · change w.notices ++ [w.timeline.now] = _
      rw [h.notices, hpast]
      rfl
    · exact Nat.le_of_eq (hnow.trans hpast).symm

/-- What is in progress is ended at the time planned for that. -/
theorem Busy.go (h : Busy r n w) : InPhase r (w.go a job tl) := by
  cases moves with
  | start phase quiet past =>
    rw [h.phase] at phase
    cases phase
  | stop phase signalled =>
    rw [h.phase] at phase
    cases phase
  | @finish due ends phase past =>
    obtain ⟨rfl, rfl⟩ : r.due (n + 1) = due ∧ r.ends n = ends := by
      rw [h.phase] at phase
      exact Phase.busy.inj phase
    have hnow : w.timeline.now = r.ends n := Nat.le_antisymm h.early past
    obtain ⟨finished, houtcomes, herrors⟩ := h.errors
    refine .idle (n + 1)
      { phase := rfl, runs := ?_, exit := h.exit, notices := h.notices, errors := ?_
        free := past, early := ?_, late := ?_ }
    · change endRun w.timeline.now w.job.runs = _
      rw [hnow, h.runs, Rota.endRun_runsDuring]
    · change complaints (w.logged ++ w.records .finish) =
        w.outcomes.filterMap (resultEvent? w.job.name)
      rw [complaints_append, complaints_records, herrors, houtcomes, List.filterMap_append]
      cases hresult : resultEvent? w.job.name w.job.pending with
      | some e | none => simp [hresult]
    · intro _
      exact Nat.le_trans h.early (r.ends_le_start n)
    · intro c hc
      obtain ⟨hbegun, hc⟩ := h.late c hc
      rw [hnow] at hc
      exact ⟨.of_ends hbegun hc, hnow.trans (Nat.max_eq_right hc).symm⟩

end

theorem Stopped.nextAct (h : Stopped r n w) : w.nextAct = none := by
  rw [Runner.nextAct, Timeline.nextAct, h.phase]
  rfl

/-! ## A whole run -/

theorem Kept.step (k : Kept r w) (s : Step w v) : Kept r v := by
  cases s with
  | polls next polled => exact k.go (moves_of_pollJob next polled)
  | acts now signalled notified => exact k.act now signalled
  | waits later rest asleep => exact k.wait later

theorem InPhase.step (k : Kept r w) (h : InPhase r w) (s : Step w v) : InPhase r v := by
  cases h with
  | idle n h =>
    cases s with
    | polls next polled => exact h.go (moves_of_pollJob next polled) k
    | acts now signalled notified => exact .idle n (h.act now)
    | waits later rest asleep => exact .idle n (h.wait k later rest asleep)
  | busy n h =>
    cases s with
    | polls next polled => exact h.go (moves_of_pollJob next polled)
    | acts now signalled notified => exact .busy n (h.act now)
    | waits later rest asleep => exact .busy n (h.wait later asleep)
  | stopped n h =>
    cases s with
    | polls next polled =>
      rw [h.nextAct] at next
      cases next
    | acts now signalled notified => exact .stopped n (h.act now notified)
    | waits later rest asleep => exact .stopped n (h.wait later)

theorem Runs.kept_inPhase (k : Kept r w) (h : InPhase r w) (run : Runs w v) :
    Kept r v ∧ InPhase r v := by
  induction run with
  | refl => exact ⟨k, h⟩
  | tail _ last ih => exact ⟨ih.1.step last, ih.2.step ih.1 last⟩

end MailDispatch.Timeline.Runner
