import Mathlib.Data.List.Forall2
import MailDispatch.Proofs.Timeline.Commands
import MailDispatch.Rehearsal.Basic

/-! # Periodic jobs keep to their schedule

What is executed when depends on nothing but the start of the job, its period, how long the
executions take and when its handle is signalled. That is so however the timeline is driven,
whatever else runs on it and whatever comes of the executions.
-/
namespace MailDispatch.Timeline
open Shutdown Cleanup

/-- A job before its first execution. -/
def Job.fresh (name : String) (period due : Nat) (chore : Chore) : Job :=
  { name, period, chore, phase := .idle due }

namespace Runner

variable {σ : Type} {r : Rota} {w v : Runner σ} {n : Nat}

/-- The error in which the schedule reports that an execution has failed. -/
inductive Complaint (name : String) : Result → Log.Event → Prop where
  | error (text : String) :
    Complaint name (.error text)
      { level := .error, part := .schedule, message := "scheduled execution ended with error"
        fields := [("operation", .text name), ("error", .text text)] }
  | crash (c : Work.Crash) :
    Complaint name (.crash c)
      { level := .error, part := .schedule, message := "recovered from panic in scheduled execution"
        fields := [("operation", .text name), ("panic", .text c.message)] }

theorem forall₂_complaint (name : String) (xs : List Result) :
    List.Forall₂ (Complaint name) (xs.filter (· ≠ .success))
      (xs.filterMap (resultEvent? name)) := by
  induction xs with
  | nil => exact .nil
  | cons x xs ih =>
    cases x with
    | success => exact ih
    | error text => exact .cons (.error text) ih
    | crash c => exact .cons (.crash c) ih

/-- How many executions are over. -/
def ended (w : Runner σ) : Nat := w.job.runs.countP fun run => run.ends.isSome

/-- A job that has started `n` executions is where its schedule says. -/
structure OnSchedule (r : Rota) (n : Nat) (w : Runner σ) : Prop where
  /-- The executions are those planned, of which only the last can be in progress. -/
  planned : w.job.runs = r.runs n ∨
    ∃ m, n = m + 1 ∧ w.job.runs = r.runsDuring m ∧ w.timeline.now ≤ r.ends m
  length : w.job.runs.length = n
  started : ∀ k run, w.job.runs[k]? = some run → run.start = r.start k ∧ r.start k ≤ w.timeline.now
  /-- None is skipped, and none is late. -/
  prompt : w.AtRest → w.signalledAt = none → w.timeline.now < r.start n
  /-- The signal comes after the start of the last one and no later than that of the next. -/
  signal : ∀ c, w.signalledAt = some c → r.begins ≤ c ∧ r.Until n c
  /-- The job returns once, at the signal or at the end of what it was executing then. -/
  returned : w.job.exit = some .returned → w.job.runs = r.runs n ∧
    w.timeline.coordinator.isNotified w.handle = true ∧
    ∃ c, w.signalledAt = some c ∧ w.notices = [max c (r.free n)]
  unreturned : w.job.exit ≠ some .returned → w.notices = [] ∧
    ∀ c, w.signalledAt = some c → w.timeline.now ≤ max c (r.free n)
  returns : w.AtRest → ∀ c, w.signalledAt = some c → max c (r.free n) ≤ w.timeline.now →
    w.job.exit = some .returned
  /-- Each failure is reported as one error, and nothing else is. -/
  results : ∀ k x, k < n → w.job.chore.result? k = some x → w.outcomes[k]? = some x
  errors : List.Forall₂ (Complaint w.job.name)
    ((w.outcomes.take w.ended).filter (· ≠ .success)) (complaints w.logged)

theorem ended_runs (h : w.job.runs = r.runs n) : w.ended = n := by
  rw [ended, h, Rota.runs, List.countP_map]
  simp [Function.comp_def]

theorem ended_runsDuring (h : w.job.runs = r.runsDuring n) : w.ended = n := by
  rw [ended, h, Rota.runsDuring, List.countP_append, Rota.runs, List.countP_map]
  simp [Function.comp_def]

/-- Where nothing is in progress all results are known. -/
theorem take_ended (k : Kept r w) (h : w.job.runs = r.runs n) :
    w.outcomes.take w.ended = w.outcomes := by
  have hcount : w.outcomes.length = w.ended := by
    rw [k.outcomes, ended_runs h, h, Rota.length_runs]
  exact List.take_of_length_le (Nat.le_of_eq hcount)

theorem start_eq_of_starts {runs : List Run} {n k : Nat} {run : Run}
    (h : runs.map Run.start = (List.range n).map r.start) (hk : runs[k]? = some run) :
    run.start = r.start k ∧ k < n := by
  have hstart : (runs.map Run.start)[k]? = some run.start := by rw [List.getElem?_map, hk]; rfl
  rw [h, List.getElem?_map] at hstart
  obtain ⟨i, hi, hstart⟩ := Option.map_eq_some_iff.mp hstart
  obtain ⟨hlt, hi⟩ := List.getElem?_eq_some_iff.mp hi
  rw [List.getElem_range] at hi
  rw [List.length_range] at hlt
  exact ⟨hi ▸ hstart.symm, hlt⟩

theorem Idle.onSchedule (k : Kept r w) (h : Idle r n w) : OnSchedule r n w := by
  have hlength : w.job.runs.length = n := by rw [h.runs, Rota.length_runs]
  have hexit : w.job.exit ≠ some .returned := by simp [h.exit]
  refine
    { planned := .inl h.runs, length := hlength, started := ?_, prompt := ?_, signal := ?_
      returned := (absurd · hexit), unreturned := fun _ => ⟨h.notices, ?_⟩, returns := ?_
      results := fun i x hi => k.results i x (hlength ▸ hi), errors := ?_ }
  · intro i run hrun
    obtain ⟨hstart, hi⟩ := start_eq_of_starts (by rw [h.runs, Rota.starts_runs]) hrun
    exact ⟨hstart, Nat.le_trans (r.start_le_free hi) h.free⟩
  · intro rest _
    exact Nat.lt_of_lt_of_le (now_lt_of_atRest rest (by rw [h.phase]; rfl)) (r.due_le_start n)
  · exact fun c hc => ⟨k.after c hc, (h.late c hc).1⟩
  · exact fun c hc => Nat.le_of_eq (h.late c hc).2
  · intro rest c hc
    rw [h.quiet k rest] at hc
    cases hc
  · rw [take_ended k h.runs, h.errors]
    exact forall₂_complaint _ _

theorem Busy.onSchedule (k : Kept r w) (h : Busy r n w) : OnSchedule r (n + 1) w := by
  have hlength : w.job.runs.length = n + 1 := by rw [h.runs, Rota.length_runsDuring]
  have hexit : w.job.exit ≠ some .returned := by simp [h.exit]
  have hends : ∀ c, w.timeline.now ≤ max c (r.free (n + 1)) := fun c =>
    Nat.le_trans h.early (Nat.le_max_right _ _)
  have hwakes : w.AtRest → w.timeline.now < r.ends n := fun rest =>
    now_lt_of_atRest rest (by rw [h.phase]; rfl)
  obtain ⟨finished, houtcomes, herrors⟩ := h.errors
  have htake : w.outcomes.take w.ended = finished := by
    have hcount := k.outcomes
    rw [houtcomes, hlength, List.length_append, List.length_singleton] at hcount
    rw [ended_runsDuring h.runs, houtcomes, List.take_left' (Nat.succ.inj hcount)]
  refine
    { planned := .inr ⟨n, rfl, h.runs, h.early⟩, length := hlength, started := ?_, prompt := ?_
      signal := ?_, returned := (absurd · hexit)
      unreturned := fun _ => ⟨h.notices, fun c _ => hends c⟩, returns := ?_
      results := fun i x hi => k.results i x (hlength ▸ hi), errors := ?_ }
  · intro i run hrun
    obtain ⟨hstart, hi⟩ := start_eq_of_starts (by rw [h.runs, Rota.starts_runsDuring]) hrun
    exact ⟨hstart, Nat.le_trans (r.start_mono (Nat.le_of_lt_succ hi)) h.begun⟩
  · exact fun rest _ => Nat.lt_of_lt_of_le (hwakes rest) (r.ends_le_start n)
  · intro c hc
    obtain ⟨hfrom, hto⟩ := h.late c hc
    exact ⟨k.after c hc, .of_ends hfrom (Nat.le_trans hto h.early)⟩
  · intro rest c _ hover
    exact absurd (Nat.le_trans (Nat.le_max_right c _) hover) (Nat.not_le_of_lt (hwakes rest))
  · rw [htake, herrors]
    exact forall₂_complaint _ _

theorem Stopped.onSchedule (k : Kept r w) (h : Stopped r n w) : OnSchedule r n w := by
  have hlength : w.job.runs.length = n := by rw [h.runs, Rota.length_runs]
  obtain ⟨c, hc, huntil, hnotices, hpast⟩ := h.returned
  refine
    { planned := .inl h.runs, length := hlength, started := ?_, prompt := ?_, signal := ?_
      returned := fun _ => ⟨h.runs, h.notified, c, hc, hnotices⟩
      unreturned := (absurd h.exit ·), returns := fun _ _ _ _ => h.exit
      results := fun i x hi => k.results i x (hlength ▸ hi), errors := ?_ }
  · intro i run hrun
    obtain ⟨hstart, hi⟩ := start_eq_of_starts (by rw [h.runs, Rota.starts_runs]) hrun
    exact ⟨hstart, Nat.le_trans (r.start_le_free hi) (Nat.le_trans (Nat.le_max_right c _) hpast)⟩
  · intro _ hquiet
    rw [hc] at hquiet
    cases hquiet
  · intro d hd
    obtain rfl : c = d := Option.some.inj (hc.symm.trans hd)
    exact ⟨k.after c hc, huntil⟩
  · rw [take_ended k h.runs, h.errors]
    exact forall₂_complaint _ _

theorem InPhase.onSchedule (k : Kept r w) (h : InPhase r w) : ∃ n, OnSchedule r n w := by
  cases h with
  | idle n h => exact ⟨n, h.onSchedule k⟩
  | busy n h => exact ⟨n + 1, h.onSchedule k⟩
  | stopped n h => exact ⟨n, h.onSchedule k⟩

/-! ## The start of a job -/

/-- The runner of a job that is on the timeline and has not been executed. -/
def begin (handle : Nat) (job : Job) (tl : Timeline σ) : Runner σ :=
  { timeline := tl, handle, job, signalledAt := signalTime tl handle }

theorem kept_begin (tl : Timeline σ) (handle : Nat) (name : String) (p : Nat) (chore : Chore) :
    Kept ⟨tl.now, p, chore.work⟩ (begin handle (.fresh name p (tl.now + p) chore) tl) where
  period := rfl
  work := rfl
  begun := Nat.le_refl _
  signalled := by
    change tl.coordinator.isSignalled handle = (signalTime tl handle).isSome
    unfold signalTime
    cases tl.coordinator.isSignalled handle with
    | true | false => rfl
  after := by
    intro c hc
    obtain ⟨-, hc⟩ := Option.ite_none_right_eq_some.mp hc
    exact Nat.le_of_eq (Option.some.inj hc)
  outcomes := rfl
  results := fun k x hk => absurd hk (Nat.not_lt_zero k)

theorem idle_begin (tl : Timeline σ) (handle : Nat) (name : String) (p : Nat) (chore : Chore) :
    Idle ⟨tl.now, p, chore.work⟩ 0 (begin handle (.fresh name p (tl.now + p) chore) tl) where
  phase := rfl
  runs := rfl
  exit := rfl
  notices := rfl
  errors := rfl
  free := Nat.le_refl _
  early := fun _ => Rota.begins_le_start ⟨tl.now, p, chore.work⟩ 0
  late := by
    intro c hc
    obtain ⟨-, hc⟩ := Option.ite_none_right_eq_some.mp hc
    obtain rfl := Option.some.inj hc
    exact ⟨.of_free (Nat.le_refl _) (Rota.begins_le_start ⟨tl.now, p, chore.work⟩ 0),
      (Nat.max_self _).symm⟩

theorem exists_mem_insertProcess (p : Process) (ps : List Process) :
    ∃ front back, insertProcess p ps = front ++ p :: back := by
  induction ps with
  | nil => exact ⟨[], [], rfl⟩
  | cons q ps ih =>
    rw [insertProcess]
    split
    · obtain ⟨front, back, h⟩ := ih
      exact ⟨q :: front, back, congrArg (q :: ·) h⟩
    · exact ⟨[], q :: ps, rfl⟩

theorem startJob_of_begin {tl : Timeline σ} {period : Time.Span} {due : Nat}
    (h : Cleanup.begin tl.now period = .idle due) (handle : Nat) (name : String) (chore : Chore) :
    tl.startJob handle name period chore =
      (tl.log (startingEvent name period)).spawn handle
        (.job (.fresh name period.totalNanos due chore)) := by
  rw [startJob, h]
  rfl

section
variable {tl started : Timeline σ} {number handle : Nat} {name : String} {period : Time.Span}
  {chore : Chore}

/-- The runner of a job that was started at `tl`. -/
def startOf (tl started : Timeline σ) (handle : Nat) (name : String) (period : Time.Span)
    (chore : Chore) : Runner σ :=
  begin handle (.fresh name period.totalNanos (tl.now + period.totalNanos) chore) started

/-- What has become of that job. -/
def Becomes (tl started : Timeline σ) (handle : Nat) (name : String) (period : Time.Span)
    (chore : Chore) (w : Runner σ) : Prop :=
  Runs (startOf tl started handle name period chore) w

variable (positive : 0 < period.totalNanos)
  (representable : (later? tl.now period).isSome = true)
  (begun : tl.startJob handle name period chore = (number, started))
include positive representable begun

theorem listed_startOf :
    started.now = tl.now ∧ Listed number (startOf tl started handle name period chore) := by
  rw [startJob_of_begin (begin_of_isSome positive representable)] at begun
  obtain ⟨rfl, rfl⟩ := Prod.mk.inj begun
  exact ⟨rfl, exists_mem_insertProcess _ _, positive⟩

theorem Becomes.inPhase (h : Becomes tl started handle name period chore w) :
    Kept ⟨tl.now, period.totalNanos, chore.work⟩ w ∧
      InPhase ⟨tl.now, period.totalNanos, chore.work⟩ w := by
  obtain ⟨hnow, -⟩ := listed_startOf positive representable begun
  unfold Becomes startOf at h
  rw [← hnow] at h ⊢
  exact h.kept_inPhase (kept_begin started handle name _ chore)
    (.idle 0 (idle_begin started handle name _ chore))

theorem Becomes.onSchedule (h : Becomes tl started handle name period chore w) :
    ∃ n, OnSchedule ⟨tl.now, period.totalNanos, chore.work⟩ n w := by
  obtain ⟨k, hphase⟩ := h.inPhase positive representable begun
  exact hphase.onSchedule k

/-- A job is executed first after one period, and then whenever it is due and its last execution has
ended, until its handle is signalled. It returns at once then, or at the end of what it executes,
and notifies its handle that one time. When it is executed does not depend on what came of the
executions, of which each failure is logged as one error. So it is in every run in which the clock
waits for the job, and what the commands of a timeline do is such a run. -/
theorem jobs_keep_to_their_schedule :
    let r : Rota := ⟨tl.now, period.totalNanos, chore.work⟩
    let p := period.totalNanos
    (r.free 0 = tl.now ∧ r.due 0 = tl.now + p ∧ r.start 0 = tl.now + p ∧ ∀ k,
      r.free (k + 1) = r.start k + chore.work k ∧
      r.due (k + 1) = (if r.due k + 5000000 < r.start k then r.start k + p else r.due k + p) ∧
      r.start (k + 1) = max (r.due (k + 1)) (r.start k + chore.work k) ∧
      r.start k + p ≤ r.start (k + 1) + 5000000) ∧
    (∀ w : Runner σ, Becomes tl started handle name period chore w →
      (∃ n, OnSchedule r n w) ∧
      (∀ v, Runs w v → w.timeline.coordinator.isSignalled handle = true →
        v.job.runs.length = w.job.runs.length) ∧
      (∀ a job next, w.nextAct = some a → w.timeline.pollJob w.handle w.job = some (job, next) →
        next.state =
          (w.records a).foldl (fun s record => w.timeline.backend.log record s) (w.worked a)) ∧
      (Listed number w → Driven number w)) ∧
    (∀ (tl' started' : Timeline σ) (number' handle' : Nat) (name' : String) (chore' : Chore),
      tl'.now = tl.now → tl'.startJob handle' name' period chore' = (number', started') →
      ∀ w w' : Runner σ, Becomes tl started handle name period chore w →
        Becomes tl' started' handle' name' period chore' w' →
        ∀ k run run', w.job.runs[k]? = some run → w'.job.runs[k]? = some run' →
          (∀ i < k, chore'.work i = chore.work i) → run'.start = run.start) ∧
    Listed number (startOf tl started handle name period chore) := by
  intro r p
  refine ⟨⟨r.free_zero, rfl, r.start_zero, fun k => ?_⟩, fun w h => ⟨?_, ?_, ?_, ?_⟩, ?_, ?_⟩
  · exact ⟨r.free_succ k, r.due_succ k, r.start_succ k, r.pace k⟩
  · exact h.onSchedule positive representable begun
  · intro v run signalled
    have hhandle : w.handle = handle := Runs.handle_eq h
    exact (run.length_runs_of_signalled (hhandle.symm ▸ signalled)).1
  · exact fun a job next act polled => state_of_moves (moves_of_pollJob act polled)
  · exact Listed.driven
  · intro tl' started' number' handle' name' chore' hnow begun' w w' h h' k run run' hrun hrun' hwork
    obtain ⟨n, hplan⟩ := h.onSchedule positive representable begun
    obtain ⟨n', hplan'⟩ := h'.onSchedule positive (hnow.symm ▸ representable) begun'
    rw [(hplan.started k run hrun).1, (hplan'.started k run' hrun').1]
    exact Rota.start_congr (r := ⟨tl.now, p, chore.work⟩) (q := ⟨tl'.now, p, chore'.work⟩) hnow rfl
      hwork
  · exact (listed_startOf positive representable begun).2

end

/-- The first execution takes long and fails, the next one crashes after a millisecond. The delay of
the one after them is made up for. -/
theorem failing_job_keeps_to_its_schedule :
    let chore : Chore := .script [⟨7000000, .error "no answer"⟩, ⟨1000000, .crash (.code 7)⟩]
    let tl : Timeline Rehearsal :=
      { now := 3, coordinator := ⟨.ofSeconds 60, false, [{ name := "job" }]⟩
        backend := Rehearsal.backend, state := {}, wallClock := .latest, operationId := "a" }
    let r : Rota := ⟨3, 400000, chore.work⟩
    let started := (tl.startJob 0 "job" (.ofNanos 400000) chore).2
    let ended := [.sleep 8700000, .cancel].foldl Command.run started
    (r.start 0 = 400003 ∧ r.start 1 = 7400003 ∧ r.start 2 = 8400003 ∧ r.start 3 = 8400003 ∧
      r.start 4 = 8600003 ∧ r.start 5 = 9000003) ∧
    complaints ended.state.log =
      [{ level := .error, part := .schedule, message := "scheduled execution ended with error"
         fields := [("operation", .text "job"), ("error", .text "no answer")] },
        { level := .error, part := .schedule
          message := "recovered from panic in scheduled execution"
          fields := [("operation", .text "job"), ("panic", .text "non-string panic payload")] }] ∧
    ∃ w n, Becomes tl started 0 "job" (.ofNanos 400000) chore w ∧ OnSchedule r n w ∧
      w.timeline = ended := by
  intro chore tl r started ended
  have begun : tl.startJob 0 "job" (.ofNanos 400000) chore = (_, started) := rfl
  have positive : 0 < (Time.Span.ofNanos 400000).totalNanos := by decide
  have representable : (later? tl.now (.ofNanos 400000)).isSome = true := by decide +kernel
  obtain ⟨-, hreached, -, hlisted⟩ := jobs_keep_to_their_schedule positive representable begun
  refine ⟨by decide +kernel, by decide +kernel, ?_⟩
  obtain ⟨-, -, -, hdriven⟩ := hreached _ .refl
  obtain ⟨w, hrun, -, htimeline⟩ := (hdriven hlisted).commands [.sleep 8700000, .cancel]
  obtain ⟨⟨n, hplan⟩, -⟩ := hreached w hrun
  exact ⟨w, n, hrun, hplan, htimeline⟩

end Runner
end MailDispatch.Timeline
