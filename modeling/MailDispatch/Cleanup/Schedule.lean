import MailDispatch.Log.Operation
import MailDispatch.Shutdown.Coordinator
import MailDispatch.Work.Basic

/-! # Periodic execution

Something is executed once in every period until shutdown. Executions never overlap.
One that is taken late delays all that follow it; a delay of at most five
milliseconds is made up for.
-/
namespace MailDispatch.Cleanup
open Text Time Shutdown

/-- The delay that is made up for. -/
def tolerance : Nat := 5000000

/-- When the next execution is due, if one that was due is taken now. -/
def nextDue (period due now : Nat) : Nat :=
  if due + tolerance < now then now + period else due + period

/-- Where the schedule stands: before the next execution, within one that ends at a known
time, or at its end. -/
inductive Phase where
  | idle (due : Nat)
  | busy (due ends : Nat)
  | stopped
  deriving DecidableEq, Repr

inductive Act where
  | start
  | finish
  | stop
  deriving DecidableEq, Repr

/-- What happens at a time, if anything does. The next execution would take `duration`. A
request for shutdown goes before an execution that is due. -/
def Phase.poll (period : Nat) (signalled : Bool) (now duration : Nat) : Phase → Option (Act × Phase)
  | .idle due =>
    if signalled then some (.stop, .stopped)
    else if due ≤ now then some (.start, .busy (nextDue period due now) (now + duration))
    else none
  | .busy due ends => if ends ≤ now then some (.finish, .idle due) else none
  | .stopped => none

def Phase.nextTime : Phase → Option Nat
  | .idle due => some due
  | .busy _ ends => some ends
  | .stopped => none

theorem le_nextDue {period due now : Nat} (h : due ≤ now) :
    now + period ≤ nextDue period due now + tolerance := by
  unfold nextDue tolerance
  split <;> omega

inductive Beginning where
  | refused
  | crashed (c : Work.Crash)
  | idle (due : Nat)
  deriving DecidableEq, Repr

/-- The first execution is due after one period. -/
def begin (now : Nat) (period : Span) : Beginning :=
  if period.isZero then .refused
  else
    match later? now period with
    | some due => .idle due
    | none => .crashed (.text "overflow when adding duration to instant")

/-! ## Events -/

def operationField (name : String) : String × Log.Value := ("operation", .text name)

def refusedEvent (name : String) : Log.Event :=
  { level := .error, part := .schedule
    message := "scheduling period must be positive, not starting scheduled execution"
    fields := [operationField name] }

def startingEvent (name : String) (period : Span) : Log.Event :=
  { level := .info, part := .schedule, message := "starting scheduled execution"
    fields := [operationField name, ("period", .text period.text)] }

def stoppingEvent (name : String) : Log.Event :=
  { level := .info, part := .schedule
    message := "shutdown requested, stopping scheduled execution"
    fields := [operationField name] }

inductive Result where
  | success
  | error (text : String)
  | crash (c : Work.Crash)
  deriving DecidableEq, Repr

def resultEvent? (name : String) : Result → Option Log.Event
  | .success => none
  | .error text =>
    some
      { level := .error, part := .schedule, message := "scheduled execution ended with error"
        fields := [operationField name, ("error", .text text)] }
  | .crash c =>
    some
      { level := .error, part := .schedule, message := "recovered from panic in scheduled execution"
        fields := [operationField name, ("panic", .text c.message)] }

end MailDispatch.Cleanup
