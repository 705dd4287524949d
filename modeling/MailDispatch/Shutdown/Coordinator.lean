import MailDispatch.Log.Event
import MailDispatch.Text.Numeral
import MailDispatch.Text.Quoted
import MailDispatch.Time.Span

/-! # The shutdown coordinator

Every background activity has a handle. Shutdown signals all handles first and then
waits until each of them is notified or the common deadline has passed.
-/
namespace MailDispatch.Shutdown
open Text Time

structure Handle where
  name : String
  signalled : Bool := false
  /-- The activity has reported that it is done. -/
  notified : Bool := false
  deriving DecidableEq, Repr

structure Coordinator where
  timeout : Span
  cancelled : Bool := false
  handles : List Handle := []
  deriving DecidableEq, Repr

/-- A handle that came too late. -/
structure Refusal where
  name : String
  deriving DecidableEq, Repr

def Refusal.message (r : Refusal) : String :=
  "shutdown already started, refusing to register handle " ++ Quoted.text r.name

/-! ## Events -/

def debugEvent (message : String) (fields : List (String × Log.Value)) : Log.Event :=
  { level := .debug, part := .shutdown, message, fields }

def handleField (name : String) : String × Log.Value := ("handle", .text name)

def registeringEvent (name : String) : Log.Event :=
  debugEvent "registering shutdown handle" [handleField name]

def alreadyRequestedEvent : Log.Event := debugEvent "shutdown already requested" []

def signallingEvent (h : Handle) : Log.Event :=
  debugEvent "signaling shutdown" [handleField h.name]

def notifiedEvent (name : String) : Log.Event :=
  debugEvent "handle notified shutdown completion" [handleField name]

/-! ## The clock

A time is what a monotonic clock shows, in nanoseconds. What waits for a time goes on at that
time. -/

/-- The first time that the clock cannot show: its seconds are a signed number of 64 bits. -/
def clockEnd : Nat := 9223372036854775808 * 1000000000

/-- The time after a span, if the clock can show it. -/
@[irreducible] def later? (now : Nat) (s : Span) : Option Nat :=
  if now + s.totalNanos < clockEnd then some (now + s.totalNanos) else none

namespace Coordinator

/-- Registers a handle, which is known by its place. -/
def newHandle (c : Coordinator) (name : String) : Except Refusal (Nat × Coordinator) :=
  if c.cancelled then .error ⟨name⟩
  else .ok (c.handles.length, { c with handles := c.handles ++ [{ name }] })

/-- Requests shutdown and signals every handle; only the first request counts. -/
def signal? (c : Coordinator) : Option Coordinator :=
  if c.cancelled then none
  else
    some { c with cancelled := true
                  handles := c.handles.map fun h => { h with signalled := true } }

def isSignalled (c : Coordinator) (i : Nat) : Bool :=
  ((c.handles[i]?).map Handle.signalled).getD false

def isNotified (c : Coordinator) (i : Nat) : Bool :=
  ((c.handles[i]?).map Handle.notified).getD false

def nameOf (c : Coordinator) (i : Nat) : String :=
  ((c.handles[i]?).map Handle.name).getD ""

/-- Reports that the activity of a handle is done; later reports change nothing. -/
def notify (c : Coordinator) (i : Nat) : Coordinator :=
  { c with handles := c.handles.modify i fun h => { h with notified := true } }

@[simp] theorem length_notify (c : Coordinator) (i : Nat) :
    (c.notify i).handles.length = c.handles.length := by
  simp [notify]

theorem isNotified_notify (c : Coordinator) (i j : Nat) :
    (c.notify i).isNotified j = (c.isNotified j || (i == j && decide (j < c.handles.length))) := by
  by_cases h : i = j
  · subst h
    by_cases hi : i < c.handles.length
    · simp [isNotified, notify, hi]
    · simp [isNotified, notify, hi]
  · have hj : (i == j) = false := by simpa using h
    simp [isNotified, notify, h, hj]

theorem isSignalled_notify (c : Coordinator) (i j : Nat) :
    (c.notify i).isSignalled j = c.isSignalled j := by
  by_cases h : i = j
  · subst h
    cases hg : c.handles[i]? <;> simp [isSignalled, notify, hg]
  · simp [isSignalled, notify, h]

theorem isSignalled_of_signal? {c d : Coordinator} (h : c.signal? = some d) (i : Nat) :
    d.isSignalled i = decide (i < c.handles.length) := by
  unfold signal? at h
  split at h
  · simp at h
  · obtain rfl := Option.some.inj h
    by_cases hi : i < c.handles.length
    · simp [isSignalled, hi]
    · simp [isSignalled, hi]

end Coordinator
end MailDispatch.Shutdown
