import MailDispatch.Proofs.Timeline.Cancelling
import MailDispatch.Proofs.Timeline.Executions

/-! # A periodic job on the timeline

The timeline polls all processes in rounds, for as many rounds as it has been given. A job whose
period is not zero goes a few steps at one time at most, so it comes to rest before the rounds run
out, whatever the other processes do. Hence the clock never goes on while the job could.
-/
namespace MailDispatch

/-! ## Steps at one time -/

namespace Cleanup

/-- How often an execution that is due can start now: what is late by no more than the tolerance is
made up for, period by period. -/
def turns (now due : Nat) : Nat := min (now + 1 - due) (tolerance + 2)

/-- A schedule goes no more steps than these before time passes. -/
def Phase.stepsAt (now : Nat) : Phase → Nat
  | .idle due => 2 * turns now due + 1
  | .busy due _ => 2 * turns now due + 2
  | .stopped => 0

theorem turns_nextDue {period due now : Nat} (positive : 0 < period) (h : due ≤ now) :
    turns now (nextDue period due now) < turns now due := by
  unfold turns nextDue tolerance
  split
  · omega
  · omega

theorem Phase.stepsAt_poll {period now duration : Nat} {signalled : Bool} {p q : Phase} {a : Act}
    (positive : 0 < period) (h : p.poll period signalled now duration = some (a, q)) :
    q.stepsAt now < p.stepsAt now := by
  cases poll_eq_some_iff.mp h with
  | start quiet past =>
    have hfewer := turns_nextDue positive past
    simp only [stepsAt]
    omega
  | finish past => exact Nat.lt_succ_self _
  | stop requested => exact Nat.succ_pos _

theorem Phase.stepsAt_lt_rounds (now : Nat) (p : Phase) : p.stepsAt now < Timeline.rounds := by
  have hturns : ∀ due, turns now due ≤ tolerance + 2 := fun due => Nat.min_le_right _ _
  cases p with
  | idle due | busy due ends =>
    have hdue := hturns due
    simp only [stepsAt, Timeline.rounds]
    omega
  | stopped => exact Nat.succ_pos _

end Cleanup

namespace Timeline
open Shutdown Cleanup

variable {σ : Type}

/-! ## What the others do -/

namespace Acts

variable {tl tl' : Timeline σ}

theorem isSignalled_eq (h : Acts tl tl') (i : Nat) :
    tl'.coordinator.isSignalled i = tl.coordinator.isSignalled i := by
  induction h with
  | same _ coordinator _ => rw [coordinator]
  | notify tl j => rw [coordinator_notify, Coordinator.isSignalled_notify]
  | trans _ _ ih ih' => exact ih'.trans ih

theorem isNotified_of (h : Acts tl tl') {i : Nat} (hi : tl.coordinator.isNotified i = true) :
    tl'.coordinator.isNotified i = true := by
  induction h with
  | same _ coordinator _ => rwa [coordinator]
  | notify tl j =>
    rw [coordinator_notify, Coordinator.isNotified_notify, hi]
    rfl
  | trans _ _ ih ih' => exact ih' (ih hi)

end Acts

theorem pollProcesses_append (tl : Timeline σ) (ps qs : List Process) :
    tl.pollProcesses (ps ++ qs) =
      ((tl.pollProcesses ps).1 || ((tl.pollProcesses ps).2.2.pollProcesses qs).1,
        (tl.pollProcesses ps).2.1 ++ ((tl.pollProcesses ps).2.2.pollProcesses qs).2.1,
        ((tl.pollProcesses ps).2.2.pollProcesses qs).2.2) := by
  induction ps generalizing tl with
  | nil => rfl
  | cons p ps ih =>
    simp only [List.cons_append, pollProcesses]
    cases tl.pollProcess p with
    | none =>
      simp only [ih]
      rfl
    | some next =>
      simp only [ih]
      rfl

theorem processes_pollCancellers (tl : Timeline σ) (cs : List Canceller) :
    (tl.pollCancellers cs).2.processes = tl.processes := by
  induction cs generalizing tl with
  | nil => rfl
  | cons c cs ih =>
    have hfirst : (tl.pollCanceller c).2.processes = tl.processes := by
      rw [timeline_pollCanceller, processes_logAll]
    exact (ih _).trans hfirst

/-! ## A job among the processes -/

namespace Runner

variable {w : Runner σ} {number : Nat}

/-- The job is the activity of a process, and its period is not zero. -/
structure Listed (number : Nat) (w : Runner σ) : Prop where
  among : ∃ front back, w.timeline.processes = front ++ ⟨number, w.handle, .job w.job⟩ :: back
  positive : 0 < w.job.period

theorem runs_act (w : Runner σ) {tl : Timeline σ} (h : Acts w.timeline tl) : Runs w (w.act tl) :=
  .single (.acts w h.now_eq (fun hs => (h.isSignalled_eq _).trans hs) h.isNotified_of)

theorem atRest_iff : w.AtRest ↔ w.nextAct = none := pollJob_eq_none_iff

/-- Whether the job can go on depends on the time and on its signal. -/
theorem nextAct_act (w : Runner σ) {tl : Timeline σ} (now : tl.now = w.timeline.now)
    (signalled : tl.coordinator.isSignalled w.handle = w.timeline.coordinator.isSignalled w.handle) :
    (w.act tl).nextAct = w.nextAct := by
  simp only [nextAct, Timeline.nextAct, act, now, signalled]

theorem stepsAt_pollJob {tl tl' : Timeline σ} {handle : Nat} {j j' : Job}
    (positive : 0 < j.period) (h : tl.pollJob handle j = some (j', tl')) :
    (∃ a, tl.nextAct handle j = some a) ∧ tl'.now = tl.now ∧ j'.period = j.period ∧
      j'.phase.stepsAt tl.now < j.phase.stepsAt tl.now := by
  have hnext : ∃ a, tl.nextAct handle j = some a := by
    refine Option.ne_none_iff_exists'.mp fun none => ?_
    rw [pollJob_eq_none_iff.mpr none] at h
    cases h
  obtain ⟨a, next⟩ := hnext
  have moves := moves_of_pollJob next h
  obtain ⟨⟨b, phase⟩, hpoll, rfl⟩ := Option.map_eq_some_iff.mp next
  have hsteps := Phase.stepsAt_poll positive hpoll
  refine ⟨⟨b, next⟩, (same_of_moves moves handle).2, ?_, ?_⟩
  · cases moves with
    | start | finish | stop => rfl
  · have hphase : j'.phase = phase := by
      rw [pollJob, hpoll] at h
      cases b with
      | start | finish | stop =>
        obtain ⟨rfl, -⟩ := Prod.mk.inj (Option.some.inj h)
        rfl
    rw [hphase]
    exact hsteps

/-! ## Rounds -/

/-- The job is at rest, or has gone a step since. -/
structure Progress (w v : Runner σ) (moved : Bool) : Prop where
  now : v.timeline.now = w.timeline.now
  period : v.job.period = w.job.period
  rest : w.AtRest → v.AtRest
  steps : v.AtRest ∨ moved = true ∧
    v.job.phase.stepsAt v.timeline.now < w.job.phase.stepsAt w.timeline.now

theorem atRest_act (w : Runner σ) {tl : Timeline σ} (h : Acts w.timeline tl) :
    (w.act tl).AtRest ↔ w.AtRest := by
  rw [atRest_iff, atRest_iff, nextAct_act w h.now_eq (h.isSignalled_eq _)]

/-- What others do neither gives the job something to do nor takes it away. -/
theorem Progress.act {u : Runner σ} {moved : Bool} (h : Progress w u moved) {tl : Timeline σ}
    (acts : Acts u.timeline tl) : Progress w (u.act tl) moved := by
  obtain ⟨hnow, hperiod, hrest, hsteps⟩ := h
  refine ⟨acts.now_eq.trans hnow, hperiod, fun rest => (atRest_act u acts).mpr (hrest rest), ?_⟩
  rcases hsteps with rest | ⟨hmoved, hfewer⟩
  · exact .inl ((atRest_act u acts).mpr rest)
  · refine .inr ⟨hmoved, ?_⟩
    change u.job.phase.stepsAt tl.now < _
    rwa [acts.now_eq]

theorem Progress.of_act {v : Runner σ} {moved : Bool} {tl : Timeline σ}
    (acts : Acts w.timeline tl) (h : Progress (w.act tl) v moved) : Progress w v moved := by
  obtain ⟨hnow, hperiod, hrest, hsteps⟩ := h
  have hsame : (w.act tl).timeline.now = w.timeline.now := acts.now_eq
  refine ⟨hnow.trans hsame, hperiod, fun rest => hrest ((atRest_act w acts).mpr rest), ?_⟩
  rw [hsame] at hsteps
  exact hsteps

/-- The turn of the job, and of those behind it. -/
theorem exists_turn (number : Nat) (positive : 0 < w.job.period) (back : List Process) :
    ∃ v moved back', Runs w v ∧ v.handle = w.handle ∧ Progress w v moved ∧
      w.timeline.pollProcesses (⟨number, w.handle, .job w.job⟩ :: back) =
        (moved, ⟨number, w.handle, .job v.job⟩ :: back', v.timeline) := by
  cases hpoll : w.timeline.pollJob w.handle w.job with
  | none =>
    have hback := Acts.pollProcesses w.timeline back
    have hself : Progress w w (w.timeline.pollProcesses back).1 := ⟨rfl, rfl, id, .inl hpoll⟩
    refine ⟨_, _, (w.timeline.pollProcesses back).2.1, runs_act w hback, rfl, hself.act hback, ?_⟩
    simp only [pollProcesses, pollProcess, hpoll, Option.map_none]
    rfl
  | some next =>
    obtain ⟨job, tl⟩ := next
    obtain ⟨⟨a, hnext⟩, hnow, hperiod, hsteps⟩ := stepsAt_pollJob positive hpoll
    have hback : Acts (w.go a job tl).timeline (tl.pollProcesses back).2.2 :=
      Acts.pollProcesses tl back
    have hself : Progress w (w.go a job tl) true := by
      refine ⟨hnow, hperiod, fun rest => ?_, .inr ⟨rfl, ?_⟩⟩
      · rw [show w.timeline.pollJob w.handle w.job = none from rest] at hpoll
        cases hpoll
      · change job.phase.stepsAt tl.now < _
        rwa [hnow]
    have hrun : Runs w (w.go a job tl) := .single (.polls w hnext hpoll)
    refine ⟨_, _, (tl.pollProcesses back).2.1, hrun.trans (runs_act _ hback), rfl,
      hself.act hback, ?_⟩
    simp only [pollProcesses, pollProcess, hpoll, Option.map_some]
    rfl

/-- In a round the job goes a step, or it is at rest and remains so. -/
theorem exists_round (h : Listed number w) :
    ∃ v moved, Runs w v ∧ Listed number v ∧ Progress w v moved ∧
      ∀ fuel, w.timeline.runProcesses (fuel + 1) =
        if moved then v.timeline.runProcesses fuel else v.timeline := by
  obtain ⟨front, back, hprocesses⟩ := h.among
  -- those in front go first
  have hfront := Acts.pollProcesses w.timeline front
  obtain ⟨v, moved, back', hrun, hhandle, hprogress, hturn⟩ :=
    exists_turn (w := w.act (w.timeline.pollProcesses front).2.2) number h.positive back
  have hself : (w.timeline.pollProcesses front).2.2.pollProcesses
      (⟨number, w.handle, .job w.job⟩ :: back) =
        (moved, ⟨number, w.handle, .job v.job⟩ :: back', v.timeline) := hturn
  let processes := (w.timeline.pollProcesses front).2.1 ++ ⟨number, w.handle, .job v.job⟩ :: back'
  have hround : w.timeline.pollProcesses w.timeline.processes =
      ((w.timeline.pollProcesses front).1 || moved, processes, v.timeline) := by
    rw [hprocesses, pollProcesses_append, hself]
  have hamong : processes =
      (w.timeline.pollProcesses front).2.1 ++ ⟨number, v.handle, .job v.job⟩ :: back' := by
    rw [hhandle]
    rfl
  have hlist : Acts v.timeline { v.timeline with processes } := .same rfl rfl rfl
  refine ⟨v.act { v.timeline with processes }, (w.timeline.pollProcesses front).1 || moved,
    ((runs_act w hfront).trans hrun).trans (runs_act v hlist), ⟨⟨_, back', hamong⟩, ?_⟩, ?_,
    fun fuel => ?_⟩
  · exact Nat.lt_of_lt_of_eq h.positive hprogress.period.symm
  · obtain ⟨hnow, hperiod, hrest, hsteps⟩ := (hprogress.act hlist).of_act hfront
    refine ⟨hnow, hperiod, hrest, hsteps.imp_right fun ⟨hmoved, hfewer⟩ => ⟨?_, hfewer⟩⟩
    rw [hmoved, Bool.or_true]
  · rw [runProcesses, hround]
    rfl

/-- With rounds enough for its steps at this time, the job is at rest after them. -/
theorem exists_runProcesses (fuel : Nat) (h : Listed number w)
    (enough : w.AtRest ∨ w.job.phase.stepsAt w.timeline.now < fuel) :
    ∃ v, Runs w v ∧ Listed number v ∧ v.AtRest ∧ v.timeline.now = w.timeline.now ∧
      v.timeline = w.timeline.runProcesses fuel := by
  induction fuel generalizing w with
  | zero =>
    have hrest := enough.resolve_right (Nat.not_lt_zero _)
    exact ⟨w, .refl, h, hrest, rfl, rfl⟩
  | succ fuel ih =>
    obtain ⟨u, moved, hrun, hlisted, ⟨hnow, -, hkept, hsteps⟩, hround⟩ := exists_round h
    cases moved with
    | false =>
      have hrest : u.AtRest := hsteps.resolve_right fun hmoved => Bool.false_ne_true hmoved.1
      exact ⟨u, hrun, hlisted, hrest, hnow, (hround fuel).symm⟩
    | true =>
      have hfuel : u.AtRest ∨ u.job.phase.stepsAt u.timeline.now < fuel := by
        rcases enough with hrest | hfewer
        · exact .inl (hkept hrest)
        · exact hsteps.imp_right fun hless => by omega
      obtain ⟨v, hrest, hlast, hstill, hsame, htimeline⟩ := ih hlisted hfuel
      exact ⟨v, hrun.trans hrest, hlast, hstill, hsame.trans hnow, htimeline.trans (hround fuel).symm⟩

/-- The rounds that the timeline is given at one time are enough for the job. -/
theorem exists_rounds (h : Listed number w) :
    ∃ v, Runs w v ∧ Listed number v ∧ v.AtRest ∧ v.timeline.now = w.timeline.now ∧
      v.timeline = w.timeline.runProcesses rounds :=
  exists_runProcesses _ h (.inr (Phase.stepsAt_lt_rounds _ _))

theorem exists_settle (h : Listed number w) :
    ∃ v, Runs w v ∧ Listed number v ∧ v.AtRest ∧ v.timeline.now = w.timeline.now ∧
      v.timeline = w.timeline.settle := by
  obtain ⟨u, hrun, hlisted, hrest, hnow, htimeline⟩ := exists_rounds h
  obtain ⟨hsame, hcoordinator⟩ := pollCancellers_same u.timeline u.timeline.cancellers
  have hprocesses := processes_pollCancellers u.timeline u.timeline.cancellers
  have hsettled : w.timeline.settle =
      { (u.timeline.pollCancellers u.timeline.cancellers).2 with
        cancellers := (u.timeline.pollCancellers u.timeline.cancellers).1 } := by
    rw [htimeline]
    rfl
  have hlooks : Step u (u.act w.timeline.settle) := by
    refine .acts u ?_ ?_ ?_
    all_goals rw [hsettled]
    · exact hsame
    · exact fun hs => (congrArg (Coordinator.isSignalled · u.handle) hcoordinator).trans hs
    · exact fun hn => (congrArg (Coordinator.isNotified · u.handle) hcoordinator).trans hn
  refine ⟨u.act w.timeline.settle, hrun.tail hlooks, ⟨?_, hlisted.positive⟩, ?_, ?_, rfl⟩
  · obtain ⟨front, back, hamong⟩ := hlisted.among
    refine ⟨front, back, ?_⟩
    change w.timeline.settle.processes = _
    rw [hsettled]
    exact hprocesses.trans hamong
  · refine atRest_iff.mpr ((nextAct_act u ?_ ?_).trans (atRest_iff.mp hrest))
    · rw [hsettled]
      exact hsame
    · rw [hsettled]
      exact congrArg (Coordinator.isSignalled · u.handle) hcoordinator
  · refine Eq.trans ?_ hnow
    change w.timeline.settle.now = _
    rw [hsettled]
    exact hsame

/-! ## Time -/

theorem now_lt_of_atRest (rest : w.AtRest) {d : Nat} (hd : w.job.phase.nextTime = some d) :
    w.timeline.now < d := by
  have hnext : (w.job.phase.poll _ _ _ _).map Prod.fst = none := atRest_iff.mp rest
  rw [Option.map_eq_none_iff] at hnext
  refine Nat.lt_of_not_le fun hle => ?_
  cases hphase : w.job.phase with
  | idle due =>
    rw [hphase] at hd hnext
    obtain rfl := Option.some.inj hd
    simp only [Phase.poll, if_pos hle] at hnext
    split at hnext <;> cases hnext
  | busy due ends =>
    rw [hphase] at hd hnext
    obtain rfl := Option.some.inj hd
    rw [Phase.poll, if_pos hle] at hnext
    cases hnext
  | stopped =>
    rw [hphase] at hd
    cases hd

/-- The timeline wakes no later than the job does. -/
theorem exists_nextTime (h : Listed number w) (rest : w.AtRest) {d : Nat}
    (hd : w.job.phase.nextTime = some d) : ∃ t, w.timeline.nextTime = some t ∧ t ≤ d := by
  obtain ⟨front, back, hamong⟩ := h.among
  have hmem : d ∈ (w.timeline.processes.filterMap Process.nextTime ++
      w.timeline.cancellers.filterMap Canceller.nextTime).filter (w.timeline.now < ·) := by
    rw [List.mem_filter, List.mem_append, List.mem_filterMap, hamong]
    exact ⟨.inl ⟨_, List.mem_append_right _ List.mem_cons_self, hd⟩,
      decide_eq_true (now_lt_of_atRest rest hd)⟩
  obtain ⟨t, ht⟩ := Option.isSome_iff_exists.mp (List.isSome_min?_of_mem hmem)
  exact ⟨t, ht, (List.min?_eq_some_iff.mp ht).2 d hmem⟩

/-- Where the job is at rest, the clock may go on up to the time at which it wakes. -/
theorem runs_wait (h : Listed number w) (rest : w.AtRest) {t : Nat} (later : w.timeline.now ≤ t)
    (asleep : ∀ d, w.job.phase.nextTime = some d → t ≤ d) :
    Runs w (w.wait t) ∧ Listed number (w.wait t) := by
  refine ⟨?_, h.among, h.positive⟩
  obtain rfl | hlt := Nat.eq_or_lt_of_le later
  · exact .refl
  · exact .single (.waits w hlt rest asleep)

/-- What settling keeps, whatever has become of a job, and the passing of time does too. -/
structure Keeps (number : Nat) (P : Timeline σ → Prop) (w : Runner σ) : Prop where
  settle : ∀ {v : Runner σ}, Runs w v → Listed number v → P v.timeline → P v.timeline.settle
  wait : ∀ {tl : Timeline σ} (t : Nat), P tl → P { tl with now := t }

theorem Keeps.always (number : Nat) (w : Runner σ) : Keeps number (fun _ => True) w :=
  ⟨fun _ _ _ => trivial, fun _ _ => trivial⟩

theorem Keeps.of_runs {P : Timeline σ → Prop} (keeps : Keeps number P w) {v : Runner σ}
    (run : Runs w v) : Keeps number P v :=
  ⟨fun rest => keeps.settle (run.trans rest), keeps.wait⟩

section
variable {P : Timeline σ → Prop}

/-- The clock is let run until a condition holds, or as long as it may. -/
theorem exists_advance (until_ : Timeline σ → Bool) (limit fuel : Nat) (h : Listed number w)
    (keeps : Keeps number P w) (kept : P w.timeline)
    (within : w.timeline.now ≤ limit) (enough : limit < w.timeline.now + fuel) :
    ∃ v, Runs w v ∧ Listed number v ∧ v.timeline = advance until_ limit fuel w.timeline ∧
      (until_ v.timeline = true ∨ v.timeline.now = limit) ∧ P v.timeline := by
  induction fuel generalizing w with
  | zero => omega
  | succ fuel ih =>
    obtain ⟨v, hrun, hlisted, hrest, hnow, hsettled⟩ := exists_settle h
    have hkept : P v.timeline := hsettled ▸ keeps.settle .refl h kept
    rw [advance, ← hsettled]
    by_cases hdone : until_ v.timeline = true
    · exact ⟨v, hrun, hlisted, by rw [if_pos hdone], .inl hdone, hkept⟩
    · have hwakes := fun d => exists_nextTime hlisted hrest (d := d)
      simp only [if_neg hdone]
      cases hnext : v.timeline.nextTime with
      | none =>
        have hasleep : ∀ d, v.job.phase.nextTime = some d → limit ≤ d := by
          intro d hd
          obtain ⟨t, ht, -⟩ := hwakes d hd
          rw [hnext] at ht
          cases ht
        obtain ⟨hwaits, hafter⟩ := runs_wait hlisted hrest (hnow ▸ within) hasleep
        exact ⟨_, hrun.trans hwaits, hafter, rfl, .inr rfl, keeps.wait limit hkept⟩
      | some t =>
        have hlater : v.timeline.now < t := Watch.lt_nextTime hnext
        have hasleep : ∀ d, v.job.phase.nextTime = some d → t ≤ d := by
          intro d hd
          obtain ⟨s, hs, hle⟩ := hwakes d hd
          rw [hnext] at hs
          cases hs
          exact hle
        by_cases hle : t ≤ limit
        · obtain ⟨hwaits, hafter⟩ := runs_wait hlisted hrest (Nat.le_of_lt hlater) hasleep
          have hfuel : limit < (v.wait t).timeline.now + fuel := by
            change limit < t + fuel
            omega
          have hbefore := hrun.trans hwaits
          obtain ⟨u, hothers, hlast, htimeline, hstop⟩ :=
            ih hafter (keeps.of_runs hbefore) (keeps.wait t hkept) hle hfuel
          refine ⟨u, hbefore.trans hothers, hlast, ?_, hstop⟩
          simp only [if_pos hle]
          exact htimeline
        · obtain ⟨hwaits, hafter⟩ := runs_wait hlisted hrest (hnow ▸ within) (t := limit)
            fun d hd => Nat.le_trans (Nat.le_of_not_le hle) (hasleep d hd)
          refine ⟨_, hrun.trans hwaits, hafter, ?_, .inr rfl, keeps.wait limit hkept⟩
          simp only [if_neg hle]
          rfl

theorem exists_waitUntil (until_ : Timeline σ → Bool) (span : Nat) (h : Listed number w)
    (keeps : Keeps number P w) (kept : P w.timeline) :
    ∃ v, Runs w v ∧ Listed number v ∧ v.timeline = w.timeline.waitUntil until_ span ∧
      (until_ v.timeline = true ∨ v.timeline.now = w.timeline.now + span) ∧ P v.timeline :=
  exists_advance until_ _ _ h keeps kept (Nat.le_add_right _ _) (by omega)

end

/-- After a time of sleep the job is at rest. -/
theorem exists_sleep (span : Nat) (h : Listed number w) :
    ∃ v, Runs w v ∧ Listed number v ∧ v.AtRest ∧ v.timeline = w.timeline.sleep span ∧
      v.timeline.now = w.timeline.now + span := by
  obtain ⟨u, hrun, hlisted, htimeline, hstop, -⟩ :=
    exists_waitUntil (fun _ => false) span h (.always number w) trivial
  obtain ⟨v, hsettle, hlast, hrest, hnow, hsettled⟩ := exists_settle hlisted
  refine ⟨v, hrun.trans hsettle, hlast, hrest, ?_, ?_⟩
  · rw [hsettled, htimeline]
    rfl
  · exact hnow.trans (hstop.resolve_left Bool.false_ne_true)

end Runner
end Timeline
end MailDispatch
