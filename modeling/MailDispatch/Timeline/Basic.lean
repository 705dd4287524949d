import MailDispatch.Timeline.Activity

/-! # Timelines

Background activities run on a clock that stands still while anything can go on and
then jumps to the next time at which something may happen. What they do to the store
and to the log they do through a backend.
-/
namespace MailDispatch
open Shutdown Cleanup Time Work

structure Timeline (σ : Type) where
  now : Nat
  coordinator : Coordinator
  processes : List Timeline.Process := []
  cancellers : List Timeline.Canceller := []
  nextNumber : Nat := 0
  backend : Backend σ
  state : σ
  /-- The time that the wall clock shows throughout. -/
  wallClock : Timestamp
  operationId : String

namespace Timeline

variable {σ : Type}

def log (tl : Timeline σ) (e : Log.Event) : Timeline σ :=
  { tl with state := tl.backend.log ⟨e, none⟩ tl.state }

def logAll (tl : Timeline σ) (es : List Log.Event) : Timeline σ := es.foldl log tl

def operationOf (tl : Timeline σ) (name : String) : Log.Operation :=
  (Log.Operation.start tl.operationId).named name

def reporting (tl : Timeline σ) (name : String) (r : Result) : Timeline σ :=
  { tl with state := Cleanup.report tl.backend.log name (tl.operationOf name) r tl.state }

/-- Reports that the activity of a handle is done. Only the first report is logged. -/
def notify (handle : Nat) (tl : Timeline σ) : Timeline σ :=
  let tl := if tl.coordinator.isNotified handle then tl
    else tl.log (notifiedEvent (tl.coordinator.nameOf handle))
  { tl with coordinator := tl.coordinator.notify handle }

/-! ## One step of an activity -/

/-- The length and the result of the next execution of a job, which a cleanup has at once. -/
def execute (tl : Timeline σ) (j : Job) : Nat × Result × Timeline σ :=
  match j.chore with
  | .script ticks =>
    match ticks[j.runs.length]? with
    | some t => (t.work, t.result, tl)
    | none => (0, .success, tl)
  | .cleanup threshold =>
    let (result, state) :=
      purgeOnce tl.backend (tl.operationOf j.name) tl.wallClock threshold tl.state
    (0, result, { tl with state })

def pollJob (tl : Timeline σ) (handle : Nat) (j : Job) : Option (Job × Timeline σ) :=
  match j.phase.poll j.period (tl.coordinator.isSignalled handle) tl.now j.duration with
  | none => none
  | some (.start, phase) =>
    let (_, pending, tl) := tl.execute j
    some ({ j with phase, pending, runs := j.runs ++ [⟨tl.now, none⟩] }, tl)
  | some (.finish, phase) =>
    some ({ j with phase, runs := endRun tl.now j.runs }, tl.reporting j.name j.pending)
  | some (.stop, phase) =>
    some ({ j with phase, exit := some .returned }, (tl.log (stoppingEvent j.name)).notify handle)

def pollWorker (tl : Timeline σ) (handle : Nat) : Worker → Option (Worker × Timeline σ)
  | .waiting delay =>
    if tl.coordinator.isSignalled handle then some (.working (tl.now + delay), tl) else none
  | .working ends => if ends ≤ tl.now then some (.done, tl.notify handle) else none
  | .done => none

def pollServer (tl : Timeline σ) (handle : Nat) (s : Server) : Option (Server × Timeline σ) :=
  (s.poll (tl.coordinator.isSignalled handle) tl.now).map fun (s, events) =>
    let tl := tl.logAll events
    (s, if s.isStopped then tl.notify handle else tl)

def pollPool (tl : Timeline σ) (handle : Nat) (closed : Bool) : Option (Bool × Timeline σ) :=
  if closed || !tl.coordinator.isSignalled handle then none
  else some (true, (tl.log closingEvent).notify handle)

def pollProcess (tl : Timeline σ) (p : Process) : Option (Process × Timeline σ) :=
  match p.activity with
  | .worker w =>
    (tl.pollWorker p.handle w).map fun (w, tl) => ({ p with activity := .worker w }, tl)
  | .job j => (tl.pollJob p.handle j).map fun (j, tl) => ({ p with activity := .job j }, tl)
  | .server s =>
    (tl.pollServer p.handle s).map fun (s, tl) => ({ p with activity := .server s }, tl)
  | .pool closed =>
    (tl.pollPool p.handle closed).map fun (c, tl) => ({ p with activity := .pool c }, tl)

/-- Lets every process go one step that can. Tells whether one did. -/
def pollProcesses (tl : Timeline σ) : List Process → Bool × List Process × Timeline σ
  | [] => (false, [], tl)
  | p :: ps =>
    match tl.pollProcess p with
    | some (p, tl) =>
      let (_, ps, tl) := pollProcesses tl ps
      (true, p :: ps, tl)
    | none =>
      let (moved, ps, tl) := pollProcesses tl ps
      (moved, p :: ps, tl)

/-- Lets the processes go on until none can. -/
def runProcesses : Nat → Timeline σ → Timeline σ
  | 0, tl => tl
  | fuel + 1, tl =>
    let (moved, processes, tl) := tl.pollProcesses tl.processes
    let tl := { tl with processes }
    if moved then runProcesses fuel tl else tl

/-- Lets a canceller pass the handles that it can. -/
def pollCanceller (tl : Timeline σ) (c : Canceller) : Canceller × Timeline σ :=
  match c.finishedAt with
  | some _ => (c, tl)
  | none =>
    let waiter := c.waiter.poll tl.coordinator.isNotified tl.now
    let tl := tl.logAll (waitEvents tl.coordinator c.total c.waiter waiter)
    let finishedAt := if waiter.finished then some tl.now else none
    ({ c with waiter, finishedAt }, tl)

def pollCancellers (tl : Timeline σ) : List Canceller → List Canceller × Timeline σ
  | [] => ([], tl)
  | c :: cs =>
    let (c, tl) := tl.pollCanceller c
    let (cs, tl) := pollCancellers tl cs
    (c :: cs, tl)

/-- More rounds than any process goes steps at one time. A job goes most of them: it makes up for a
delay within the tolerance period by period, and a period lasts a nanosecond at least. -/
def rounds : Nat := 2 * tolerance + 8

def settle (tl : Timeline σ) : Timeline σ :=
  let tl := runProcesses rounds tl
  let (cancellers, tl) := tl.pollCancellers tl.cancellers
  { tl with cancellers }

/-! ## Time -/

def nextTime (tl : Timeline σ) : Option Nat :=
  ((tl.processes.filterMap Process.nextTime ++ tl.cancellers.filterMap Canceller.nextTime).filter
    (tl.now < ·)).min?

/-- Lets time pass until a condition holds, at most up to a time. Every step takes at least a
nanosecond. -/
def advance (until_ : Timeline σ → Bool) (limit : Nat) : Nat → Timeline σ → Timeline σ
  | 0, tl => { tl with now := limit }.settle
  | fuel + 1, tl =>
    let tl := tl.settle
    if until_ tl then tl
    else
      match tl.nextTime with
      | some t =>
        if t ≤ limit then advance until_ limit fuel { tl with now := t }
        else { tl with now := limit }
      | none => { tl with now := limit }

def waitUntil (until_ : Timeline σ → Bool) (span : Nat) (tl : Timeline σ) : Timeline σ :=
  advance until_ (tl.now + span) (span + 1) tl

def sleep (span : Nat) (tl : Timeline σ) : Timeline σ :=
  (waitUntil (fun _ => false) span tl).settle

end Timeline
end MailDispatch
