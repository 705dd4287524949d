import Mathlib.Logic.Relation
import MailDispatch.Proofs.Cleanup.Rota
import MailDispatch.Proofs.Timeline.Watch

/-! # Watching a periodic job

A job is watched from its start. It goes on by itself whenever it can; for the rest other
activities go on beside it, which may signal its handle, and time passes. The clock stands
still while the job has something to do, and stops at the time for which the job waits.

A runner keeps what nobody else does: when its handle was signalled first, when it notified
the handle, what came of each execution, and what the job itself has logged.
-/
namespace MailDispatch

namespace Shutdown.Coordinator

variable {c : Coordinator} {i : Nat}

theorem lt_of_isSignalled (h : c.isSignalled i = true) : i < c.handles.length := by
  refine Decidable.byContradiction fun hge => ?_
  rw [isSignalled, List.getElem?_eq_none (Nat.le_of_not_lt hge)] at h
  cases h

theorem isNotified_notify_of_isSignalled (h : c.isSignalled i = true) :
    (c.notify i).isNotified i = true := by
  rw [isNotified_notify]
  simp [lt_of_isSignalled h]

end Shutdown.Coordinator

/-! ## One step of a job -/

namespace Cleanup

/-- The ways in which a schedule goes on. -/
inductive Phase.Moves (period : Nat) (signalled : Bool) (now duration : Nat) :
    Phase → Act → Phase → Prop where
  | start {due : Nat} (quiet : signalled = false) (past : due ≤ now) :
    Moves period signalled now duration (.idle due) .start
      (.busy (nextDue period due now) (now + duration))
  | finish {due ends : Nat} (past : ends ≤ now) :
    Moves period signalled now duration (.busy due ends) .finish (.idle due)
  | stop {due : Nat} (requested : signalled = true) :
    Moves period signalled now duration (.idle due) .stop .stopped

theorem Phase.poll_eq_some_iff {period now duration : Nat} {signalled : Bool} {p q : Phase}
    {a : Act} :
    p.poll period signalled now duration = some (a, q) ↔
      Moves period signalled now duration p a q := by
  constructor
  · intro h
    cases p with
    | idle due =>
      cases signalled with
      | true =>
        obtain ⟨rfl, rfl⟩ := Prod.mk.inj (Option.some.inj h)
        exact .stop rfl
      | false =>
        obtain ⟨past, h⟩ := Option.ite_none_right_eq_some.mp h
        obtain ⟨rfl, rfl⟩ := Prod.mk.inj (Option.some.inj h)
        exact .start rfl past
    | busy due ends =>
      obtain ⟨past, h⟩ := Option.ite_none_right_eq_some.mp h
      obtain ⟨rfl, rfl⟩ := Prod.mk.inj (Option.some.inj h)
      exact .finish past
    | stopped => cases h
  · intro h
    cases h with
    | start quiet past => simp [poll, quiet, past]
    | finish past => simp [poll, past]
    | stop requested => simp [poll, requested]

end Cleanup

namespace Timeline
open Shutdown Cleanup

variable {σ : Type}

/-- An execution changes nothing but the state of the backend. -/
theorem execute_eq (tl : Timeline σ) (j : Job) :
    (tl.execute j).2.2 = { tl with state := (tl.execute j).2.2.state } := by
  unfold execute
  split
  · split
    · rfl
    · rfl
  · rfl

/-- The ways in which a job goes on. -/
inductive Moves (tl : Timeline σ) (handle : Nat) (j : Job) : Act → Job → Timeline σ → Prop where
  | start {due : Nat} (phase : j.phase = .idle due)
      (quiet : tl.coordinator.isSignalled handle = false) (past : due ≤ tl.now) :
      Moves tl handle j .start
        { j with
          phase := .busy (nextDue j.period due tl.now) (tl.now + j.duration)
          pending := (tl.execute j).2.1
          runs := j.runs ++ [⟨tl.now, none⟩] }
        (tl.execute j).2.2
  | finish {due ends : Nat} (phase : j.phase = .busy due ends) (past : ends ≤ tl.now) :
      Moves tl handle j .finish { j with phase := .idle due, runs := endRun tl.now j.runs }
        (tl.reporting j.name j.pending)
  | stop {due : Nat} (phase : j.phase = .idle due)
      (signalled : tl.coordinator.isSignalled handle = true) :
      Moves tl handle j .stop { j with phase := .stopped, exit := some .returned }
        ((tl.log (stoppingEvent j.name)).notify handle)

def nextAct (tl : Timeline σ) (handle : Nat) (j : Job) : Option Act :=
  (j.phase.poll j.period (tl.coordinator.isSignalled handle) tl.now j.duration).map Prod.fst

theorem moves_of_pollJob {tl tl' : Timeline σ} {handle : Nat} {j j' : Job} {a : Act}
    (act : tl.nextAct handle j = some a) (polled : tl.pollJob handle j = some (j', tl')) :
    Moves tl handle j a j' tl' := by
  obtain ⟨⟨b, phase⟩, hpoll, rfl⟩ := Option.map_eq_some_iff.mp act
  rw [pollJob, hpoll] at polled
  have moves := Phase.poll_eq_some_iff.mp hpoll
  generalize hphase : j.phase = p at moves
  cases moves with
  | start quiet past =>
    simp only [Option.some.injEq, Prod.mk.injEq] at polled
    obtain ⟨rfl, rfl⟩ := polled
    have hnow : (tl.execute j).2.2.now = tl.now := by rw [execute_eq]
    simpa only [hnow] using Moves.start hphase quiet past
  | finish past =>
    obtain ⟨rfl, rfl⟩ := Prod.mk.inj (Option.some.inj polled)
    exact .finish hphase past
  | stop requested =>
    obtain ⟨rfl, rfl⟩ := Prod.mk.inj (Option.some.inj polled)
    exact .stop hphase requested

theorem exists_pollJob {tl : Timeline σ} {handle : Nat} {j : Job} {a : Act}
    (act : tl.nextAct handle j = some a) :
    ∃ j' tl', tl.pollJob handle j = some (j', tl') := by
  obtain ⟨⟨b, phase⟩, hpoll, -⟩ := Option.map_eq_some_iff.mp act
  unfold pollJob
  rw [hpoll]
  cases b with
  | start | finish | stop => exact ⟨_, _, rfl⟩

theorem pollJob_eq_none_iff {tl : Timeline σ} {handle : Nat} {j : Job} :
    tl.pollJob handle j = none ↔ tl.nextAct handle j = none := by
  constructor
  · intro h
    refine Option.eq_none_iff_forall_ne_some.mpr fun a act => ?_
    obtain ⟨j', tl', polled⟩ := exists_pollJob act
    rw [h] at polled
    cases polled
  · intro h
    rw [nextAct, Option.map_eq_none_iff] at h
    rw [pollJob, h]

/-! ## Chores -/

def Chore.work : Chore → Nat → Nat
  | .script ticks, k => ((ticks[k]?).map Tick.work).getD 0
  | .cleanup _, _ => 0

/-- What comes of an execution whose result is known beforehand. -/
def Chore.result? : Chore → Nat → Option Result
  | .script ticks, k => some (((ticks[k]?).map Tick.result).getD .success)
  | .cleanup _, _ => none

theorem Job.duration_eq (j : Job) : j.duration = j.chore.work j.runs.length := by
  unfold Job.duration Chore.work
  cases j.chore with
  | script ticks | cleanup threshold => rfl

theorem result_execute (tl : Timeline σ) {j : Job} {x : Result}
    (h : j.chore.result? j.runs.length = some x) : (tl.execute j).2.1 = x := by
  unfold execute
  cases hchore : j.chore with
  | cleanup threshold =>
    rw [hchore] at h
    cases h
  | script ticks =>
    rw [hchore] at h
    dsimp only [Chore.result?] at h ⊢
    obtain rfl := Option.some.inj h
    cases ticks[j.runs.length]? with
    | some t | none => rfl

/-! ## Runners -/

structure Runner (σ : Type) where
  timeline : Timeline σ
  handle : Nat
  job : Job
  signalledAt : Option Nat
  /-- The times at which the job has notified its handle. -/
  notices : List Nat := []
  outcomes : List Result := []
  logged : List Log.Record := []

namespace Runner

/-- The time at which a signal is first seen, if there is one. -/
def signalTime (tl : Timeline σ) (handle : Nat) : Option Nat :=
  if tl.coordinator.isSignalled handle then some tl.now else none

/-- What the job itself logs of a step. -/
def records (w : Runner σ) : Act → List Log.Record
  | .start => []
  | .finish =>
    ((resultEvent? w.job.name w.job.pending).map fun e =>
      ⟨e, some (w.timeline.operationOf w.job.name)⟩).toList
  | .stop =>
    ⟨stoppingEvent w.job.name, none⟩ ::
      if w.timeline.coordinator.isNotified w.handle then []
      else [⟨notifiedEvent (w.timeline.coordinator.nameOf w.handle), none⟩]

def go (a : Act) (job : Job) (tl : Timeline σ) (w : Runner σ) : Runner σ :=
  { w with
    timeline := tl
    job
    notices := match a with
      | .stop => w.notices ++ [w.timeline.now]
      | .start | .finish => w.notices
    outcomes := match a with
      | .start => w.outcomes ++ [job.pending]
      | .finish | .stop => w.outcomes
    logged := w.logged ++ w.records a }

/-- Something else goes on, and has changed the timeline. -/
def act (tl : Timeline σ) (w : Runner σ) : Runner σ :=
  { w with timeline := tl, signalledAt := w.signalledAt.or (signalTime tl w.handle) }

def wait (t : Nat) (w : Runner σ) : Runner σ := { w with timeline := { w.timeline with now := t } }

def nextAct (w : Runner σ) : Option Act := w.timeline.nextAct w.handle w.job

/-- There is nothing for the job to do at this time. -/
def AtRest (w : Runner σ) : Prop := w.timeline.pollJob w.handle w.job = none

/-- Time passes only while the job has nothing to do, and no further than to the time at which it
wakes by itself. Nobody takes back a signal or a notice. -/
inductive Step : Runner σ → Runner σ → Prop where
  | polls (w : Runner σ) {a : Act} {job : Job} {tl : Timeline σ} (next : w.nextAct = some a)
      (polled : w.timeline.pollJob w.handle w.job = some (job, tl)) : Step w (w.go a job tl)
  | acts (w : Runner σ) {tl : Timeline σ} (now : tl.now = w.timeline.now)
      (signalled : w.timeline.coordinator.isSignalled w.handle = true →
        tl.coordinator.isSignalled w.handle = true)
      (notified : w.timeline.coordinator.isNotified w.handle = true →
        tl.coordinator.isNotified w.handle = true) : Step w (w.act tl)
  | waits (w : Runner σ) {t : Nat} (later : w.timeline.now < t) (rest : w.AtRest)
      (asleep : ∀ d, w.job.phase.nextTime = some d → t ≤ d) : Step w (w.wait t)

abbrev Runs : Runner σ → Runner σ → Prop := Relation.ReflTransGen Step

theorem Runs.handle_eq {w v : Runner σ} (run : Runs w v) : v.handle = w.handle := by
  induction run with
  | refl => rfl
  | tail _ last ih =>
    rw [← ih]
    cases last with
    | polls | acts | waits => rfl

/-! ## What the job logs -/

/-- The state before the job has logged what it does in a step. -/
def worked (w : Runner σ) : Act → σ
  | .start => (w.timeline.execute w.job).2.2.state
  | .finish | .stop => w.timeline.state

/-- The records that a runner keeps are those that the backend is given, beside what the chore
itself does. -/
theorem state_of_moves {w : Runner σ} {a : Act} {job : Job} {tl : Timeline σ}
    (h : Moves w.timeline w.handle w.job a job tl) :
    tl.state = (w.records a).foldl (fun s record => w.timeline.backend.log record s) (w.worked a) := by
  cases h with
  | start => rfl
  | finish =>
    unfold reporting Cleanup.report records
    cases resultEvent? w.job.name w.job.pending with
    | some e | none => rfl
  | stop =>
    unfold notify records
    simp only [show (w.timeline.log (stoppingEvent w.job.name)).coordinator =
      w.timeline.coordinator from rfl]
    cases w.timeline.coordinator.isNotified w.handle with
    | true | false => rfl

/-- The errors among the records. -/
def complaints (records : List Log.Record) : List Log.Event :=
  (records.map Log.Record.event).filter fun e => e.level = .error

theorem complaints_append (as bs : List Log.Record) :
    complaints (as ++ bs) = complaints as ++ complaints bs := by
  simp [complaints]

/-- A failed execution is an error, and the only one that a job reports. -/
theorem complaints_records (w : Runner σ) (a : Act) :
    complaints (w.records a) =
      if a = .finish then (resultEvent? w.job.name w.job.pending).toList else [] := by
  cases a with
  | start => rfl
  | finish =>
    unfold records
    cases w.job.pending with
    | success | error text | crash c => rfl
  | stop =>
    unfold records
    cases w.timeline.coordinator.isNotified w.handle with
    | true | false => rfl

/-! ## Signals -/

theorem same_of_moves {tl tl' : Timeline σ} {handle : Nat} {j j' : Job} {a : Act}
    (h : Moves tl handle j a j' tl') (i : Nat) :
    tl'.coordinator.isSignalled i = tl.coordinator.isSignalled i ∧ tl'.now = tl.now := by
  cases h with
  | start =>
    rw [execute_eq]
    exact ⟨rfl, rfl⟩
  | finish => exact ⟨rfl, rfl⟩
  | stop =>
    refine ⟨?_, now_notify handle _⟩
    rw [coordinator_notify, Coordinator.isSignalled_notify]
    rfl

theorem signalledAt_step {w v : Runner σ} (s : Step w v) {c : Nat} (h : w.signalledAt = some c) :
    v.signalledAt = some c := by
  cases s with
  | polls | waits => exact h
  | acts => simp [act, h]

theorem Runs.signalledAt_of {w v : Runner σ} (run : Runs w v) {c : Nat}
    (h : w.signalledAt = some c) : v.signalledAt = some c := by
  induction run with
  | refl => exact h
  | tail _ last ih => exact signalledAt_step last ih

theorem isSignalled_step {w v : Runner σ} (s : Step w v)
    (h : w.timeline.coordinator.isSignalled w.handle = true) :
    v.timeline.coordinator.isSignalled v.handle = true := by
  cases s with
  | polls next polled =>
    exact (same_of_moves (moves_of_pollJob next polled) w.handle).1.trans h
  | acts now signalled notified => exact signalled h
  | waits => exact h

/-- Once the handle is signalled nothing is executed any more, even where it was due before. -/
theorem Runs.length_runs_of_signalled {w v : Runner σ} (run : Runs w v)
    (h : w.timeline.coordinator.isSignalled w.handle = true) :
    v.job.runs.length = w.job.runs.length ∧
      v.timeline.coordinator.isSignalled v.handle = true := by
  induction run with
  | refl => exact ⟨rfl, h⟩
  | tail _ last ih =>
    obtain ⟨hlength, hsignalled⟩ := ih
    refine ⟨?_, isSignalled_step last hsignalled⟩
    rw [← hlength]
    cases last with
    | acts | waits => rfl
    | polls next polled =>
      cases moves_of_pollJob next polled with
      | start phase quiet past =>
        rw [quiet] at hsignalled
        cases hsignalled
      | finish phase past => exact List.length_modify ..
      | stop phase signalled => rfl

end Runner
end Timeline
end MailDispatch
