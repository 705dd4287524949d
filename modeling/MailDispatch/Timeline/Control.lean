import MailDispatch.Timeline.Basic

/-! # Acting on a timeline

Registering handles, starting activities, requesting shutdown and waiting for it.
-/
namespace MailDispatch.Timeline
open Shutdown Cleanup Time

variable {σ : Type}

def newHandle (name : String) (tl : Timeline σ) : Except Refusal (Nat × Timeline σ) :=
  (tl.coordinator.newHandle name).map fun (i, coordinator) =>
    (i, { tl.log (registeringEvent name) with coordinator })

/-! ## Starting activities -/

/-- Adds a process behind those of the same handle and of earlier ones. -/
def insertProcess (p : Process) : List Process → List Process
  | [] => [p]
  | q :: qs => if q.handle ≤ p.handle then q :: insertProcess p qs else p :: q :: qs

def spawn (handle : Nat) (a : Activity) (tl : Timeline σ) : Nat × Timeline σ :=
  (tl.nextNumber,
    { tl with processes := insertProcess ⟨tl.nextNumber, handle, a⟩ tl.processes
              nextNumber := tl.nextNumber + 1 })

def startJob (handle : Nat) (name : String) (period : Span) (chore : Chore) (tl : Timeline σ) :
    Nat × Timeline σ :=
  let job : Job := { name, period := period.totalNanos, chore, phase := .stopped }
  match Cleanup.begin tl.now period with
  | .refused =>
    ((tl.log (refusedEvent name)).notify handle).spawn handle
      (.job { job with exit := some .returned })
  | .crashed c =>
    (tl.log (startingEvent name period)).spawn handle (.job { job with exit := some (.crashed c) })
  | .idle due =>
    (tl.log (startingEvent name period)).spawn handle (.job { job with phase := .idle due })

/-- Starts a server that drains no longer than the coordinator waits. -/
def startServer (handle : Nat) (drain : Span) (reachable : Bool) (tl : Timeline σ) :
    Nat × Timeline σ :=
  tl.spawn handle (.server { drain := shorter tl.coordinator.timeout drain, reachable })

def activity? (tl : Timeline σ) (number : Nat) : Option Activity :=
  (tl.processes.find? fun p => p.number == number).map Process.activity

def job? (tl : Timeline σ) (number : Nat) : Option Job :=
  match tl.activity? number with
  | some (.job j) => some j
  | _ => none

def server? (tl : Timeline σ) (number : Nat) : Option Server :=
  match tl.activity? number with
  | some (.server s) => some s
  | _ => none

/-! ## Shutdown -/

/-- Requests shutdown. Who does so first begins to wait at once. -/
def beginCancel (tl : Timeline σ) : Canceller × Timeline σ :=
  match tl.coordinator.signal? with
  | none =>
    ({ waiter := ⟨none, [], []⟩, total := 0, finishedAt := some tl.now },
      tl.log alreadyRequestedEvent)
  | some coordinator =>
    let tl := { tl with coordinator }.logAll (coordinator.handles.map signallingEvent)
    tl.pollCanceller
      { waiter := .start coordinator tl.now, total := coordinator.handles.length }

def cancelInBackground (tl : Timeline σ) : Timeline σ :=
  let (c, tl) := tl.beginCancel
  { tl with cancellers := tl.cancellers ++ [c] }.settle

/-- The longest time that a step waits for a shutdown. -/
def patience : Nat := (Span.ofSeconds 10000).totalNanos

def lastFinished (tl : Timeline σ) : Bool :=
  match tl.cancellers.getLast? with
  | some c => c.finishedAt.isSome
  | none => true

def cancel (tl : Timeline σ) : Bool × Timeline σ :=
  let (c, tl) := tl.beginCancel
  let tl := { tl with cancellers := tl.cancellers ++ [c] }
  let tl := tl.waitUntil lastFinished patience
  let finished := lastFinished tl
  (finished, { tl with cancellers := tl.cancellers.dropLast })

/-- Waits for the cancellers in the background. Gives the times at which they finished. -/
def joinCancels (tl : Timeline σ) : List Nat × Timeline σ :=
  let tl := tl.waitUntil (fun tl => tl.cancellers.all fun c => c.finishedAt.isSome) patience
  (tl.cancellers.filterMap Canceller.finishedAt, { tl with cancellers := [] })

/-- Waits for the signal of a handle. Tells whether it came in time. -/
def awaitSignal (handle : Nat) (span : Nat) (tl : Timeline σ) : Bool × Timeline σ :=
  let signalled (tl : Timeline σ) : Bool := tl.coordinator.isSignalled handle
  let tl := tl.waitUntil signalled span
  (signalled tl, tl)

def awaitServer (number : Nat) (span : Nat) (tl : Timeline σ) : Option ServerEnd × Timeline σ :=
  let result (tl : Timeline σ) : Option ServerEnd :=
    (tl.server? number).bind fun s => s.phase.result?
  let tl := tl.waitUntil (fun tl => (result tl).isSome) span
  (result tl, tl)

end MailDispatch.Timeline
