import MailDispatch.Cleanup.Job
import MailDispatch.Shutdown.Server
import MailDispatch.Shutdown.Waiting

/-! # Background activities

Jobs, workers, the server and the pool: each belongs to a handle, waits for
something and goes on when it can.
-/
namespace MailDispatch.Timeline
open Shutdown Cleanup Time Work

structure Tick where
  work : Nat
  result : Result

inductive Chore where
  | script (ticks : List Tick)
  | cleanup (threshold : Time.Span)

structure Run where
  start : Nat
  ends : Option Nat
  deriving DecidableEq, Repr

inductive Exit where
  | returned
  | crashed (c : Crash)
  deriving DecidableEq, Repr

structure Job where
  name : String
  period : Nat
  chore : Chore
  phase : Phase
  /-- The result of the execution in progress. -/
  pending : Result := .success
  runs : List Run := []
  exit : Option Exit := none

def Job.duration (j : Job) : Nat :=
  match j.chore with
  | .script ticks => ((ticks[j.runs.length]?).map Tick.work).getD 0
  | .cleanup _ => 0

def endRun (now : Nat) (runs : List Run) : List Run :=
  runs.modify (runs.length - 1) fun r => { r with ends := some now }

/-- A worker waits for the signal, works for a while and notifies. -/
inductive Worker where
  | waiting (delay : Nat)
  | working (ends : Nat)
  | done

def closingEvent : Log.Event :=
  { level := .info, part := .pool, message := "closing postgres pool" }

inductive Activity where
  | worker (w : Worker)
  | job (j : Job)
  | server (s : Server)
  | pool (closed : Bool)

def Activity.nextTime : Activity → Option Nat
  | .worker (.working ends) => some ends
  | .worker _ => none
  | .job j => j.phase.nextTime
  | .server s => s.phase.nextTime
  | .pool _ => none

structure Process where
  number : Nat
  handle : Nat
  activity : Activity

def Process.nextTime (p : Process) : Option Nat := p.activity.nextTime

/-- Someone who has requested shutdown and waits for the handles, of which there were `total`. -/
structure Canceller where
  waiter : Waiter
  total : Nat
  finishedAt : Option Nat := none

def Canceller.nextTime (c : Canceller) : Option Nat :=
  match c.finishedAt with
  | some _ => none
  | none => c.waiter.deadline

end MailDispatch.Timeline
