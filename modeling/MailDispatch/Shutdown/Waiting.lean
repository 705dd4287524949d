import MailDispatch.Shutdown.Coordinator

/-! # Waiting for the handles

Whoever has requested shutdown waits for one handle after the other, all under one
deadline. A handle that is not notified when the deadline has passed is abandoned.
-/
namespace MailDispatch.Shutdown
open Text Time

structure Waiter where
  deadline : Option Nat
  /-- The handles that were not passed yet. -/
  remaining : List Nat
  abandoned : List Nat := []
  deriving DecidableEq, Repr

def expired (deadline : Option Nat) (now : Nat) : Bool :=
  match deadline with
  | some d => d ≤ now
  | none => false

namespace Waiter

def start (c : Coordinator) (now : Nat) : Waiter :=
  ⟨later? now c.timeout, List.range c.handles.length, []⟩

def finished (w : Waiter) : Bool := w.remaining.isEmpty

/-- Passes the handles that are notified, and all of them once the deadline has passed. -/
def pass (notified : Nat → Bool) (timeUp : Bool) : List Nat → List Nat → List Nat × List Nat
  | [], abandoned => ([], abandoned)
  | h :: rest, abandoned =>
    if notified h then pass notified timeUp rest abandoned
    else if timeUp then pass notified timeUp rest (abandoned ++ [h])
    else (h :: rest, abandoned)

def poll (notified : Nat → Bool) (now : Nat) (w : Waiter) : Waiter :=
  let (remaining, abandoned) := pass notified (expired w.deadline now) w.remaining w.abandoned
  { w with remaining, abandoned }

/-- Once the deadline has passed all handles are passed, and those not notified are abandoned. -/
theorem pass_expired (notified : Nat → Bool) (remaining abandoned : List Nat) :
    pass notified true remaining abandoned =
      ([], abandoned ++ remaining.filter fun h => !notified h) := by
  induction remaining generalizing abandoned with
  | nil => simp [pass]
  | cons h rest ih =>
    by_cases hn : notified h
    · simp [pass, hn, ih]
    · simp [pass, hn, ih]

/-- Before the deadline the handles are passed up to the first one that is not notified. -/
theorem pass_early (notified : Nat → Bool) (remaining abandoned : List Nat) :
    pass notified false remaining abandoned = (remaining.dropWhile notified, abandoned) := by
  induction remaining with
  | nil => rfl
  | cons h rest ih =>
    by_cases hn : notified h
    · simp [pass, hn, ih]
    · simp [pass, hn]

/-- Before the deadline nobody is abandoned, and the wait is over when all are notified. -/
theorem finished_poll_early {notified : Nat → Bool} {now : Nat} {w : Waiter}
    (h : expired w.deadline now = false) :
    (w.poll notified now).finished = w.remaining.all notified ∧
      (w.poll notified now).abandoned = w.abandoned := by
  simp only [poll, h, pass_early, finished, and_true]
  induction w.remaining with
  | nil => rfl
  | cons a rest ih =>
    by_cases ha : notified a
    · simp [ha, ih]
    · simp [ha]

theorem finished_poll_expired {notified : Nat → Bool} {now : Nat} {w : Waiter}
    (h : expired w.deadline now = true) :
    (w.poll notified now).finished = true ∧
      (w.poll notified now).abandoned = w.abandoned ++ w.remaining.filter fun a => !notified a := by
  simp [poll, h, pass_expired, finished]

end Waiter

def abandonedEvent (c : Coordinator) (i : Nat) : Log.Event :=
  { level := .warn, part := .shutdown, message := "handle didn't complete shutdown in time"
    fields := [handleField (c.nameOf i), ("timeout", .text c.timeout.text)] }

def completedEvent (c : Coordinator) (i : Nat) : Log.Event :=
  debugEvent "handle completed shutdown" [handleField (c.nameOf i)]

def waitingEvent (c : Coordinator) (i : Nat) : Log.Event :=
  debugEvent "waiting for handle" [handleField (c.nameOf i)]

def finishedEvent (handles abandoned : Nat) : Log.Event :=
  { level := .info, part := .shutdown, message := "shutdown sequence finished"
    fields := [("handles", .whole handles), ("abandoned", .whole abandoned)] }

def passedEvents (c : Coordinator) (abandoned : List Nat) (i : Nat) : List Log.Event :=
  [waitingEvent c i, if abandoned.contains i then abandonedEvent c i else completedEvent c i]

def waitEvents (c : Coordinator) (total : Nat) (before after : Waiter) : List Log.Event :=
  let passed := before.remaining.take (before.remaining.length - after.remaining.length)
  passed.flatMap (passedEvents c after.abandoned) ++
    if after.finished then [finishedEvent total after.abandoned.length] else []

end MailDispatch.Shutdown
