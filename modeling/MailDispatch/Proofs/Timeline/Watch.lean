import MailDispatch.Proofs.Shutdown.Times
import MailDispatch.Timeline.Control

/-! # Watching a request for shutdown

A request for shutdown is watched from the moment at which all handles are signalled.
After that it is one activity among others: handles are notified, whatever else runs goes
on, and now and then the request looks which handles it can pass. Only the clock is not
free. It stands still while the request has something to do, and it stops at the deadline.

A watch keeps what nobody else does: when each handle was notified first, and what the
request has logged.
-/
namespace MailDispatch.Shutdown.Coordinator

@[simp] theorem nameOf_notify (c : Coordinator) (i j : Nat) :
    (c.notify i).nameOf j = c.nameOf j := by
  by_cases h : i = j
  · subst h
    cases hg : c.handles[i]? <;> simp [nameOf, notify, hg]
  · simp [nameOf, notify, h]

section
variable {c d : Coordinator} (h : c.signal? = some d)
include h

theorem eq_of_signal? :
    d = { c with
      cancelled := true
      handles := c.handles.map fun h => { h with signalled := true } } := by
  unfold signal? at h
  split at h
  · cases h
  · exact (Option.some.inj h).symm

theorem timeout_of_signal? : d.timeout = c.timeout := by
  rw [eq_of_signal? h]

theorem length_of_signal? : d.handles.length = c.handles.length := by
  rw [eq_of_signal? h]
  exact List.length_map ..

theorem nameOf_of_signal? (i : Nat) : d.nameOf i = c.nameOf i := by
  rw [eq_of_signal? h]
  cases hi : c.handles[i]? <;> simp [nameOf, hi]

theorem isNotified_of_signal? (i : Nat) : d.isNotified i = c.isNotified i := by
  rw [eq_of_signal? h]
  cases hi : c.handles[i]? <;> simp [isNotified, hi]

theorem signalling_of_signal? : d.handles.map signallingEvent = c.handles.map signallingEvent := by
  rw [eq_of_signal? h, List.map_map]
  rfl

end

end MailDispatch.Shutdown.Coordinator

namespace MailDispatch.Timeline
open Shutdown

variable {σ : Type}

/-- Logging changes what the backend keeps and nothing of the schedule. -/
theorem logAll_eq (es : List Log.Event) (tl : Timeline σ) :
    tl.logAll es = { tl with state := (tl.logAll es).state } := by
  induction es generalizing tl with
  | nil => rfl
  | cons e es ih => exact ih (tl.log e)

@[simp] theorem now_logAll (es : List Log.Event) (tl : Timeline σ) :
    (tl.logAll es).now = tl.now := by
  rw [logAll_eq]

@[simp] theorem coordinator_logAll (es : List Log.Event) (tl : Timeline σ) :
    (tl.logAll es).coordinator = tl.coordinator := by
  rw [logAll_eq]

@[simp] theorem processes_logAll (es : List Log.Event) (tl : Timeline σ) :
    (tl.logAll es).processes = tl.processes := by
  rw [logAll_eq]

@[simp] theorem cancellers_logAll (es : List Log.Event) (tl : Timeline σ) :
    (tl.logAll es).cancellers = tl.cancellers := by
  rw [logAll_eq]

theorem notify_eq (i : Nat) (tl : Timeline σ) :
    tl.notify i =
      { tl with
        state := (tl.notify i).state
        coordinator := tl.coordinator.notify i } := by
  unfold notify
  split
  · rfl
  · rfl

@[simp] theorem now_notify (i : Nat) (tl : Timeline σ) : (tl.notify i).now = tl.now := by
  rw [notify_eq]

@[simp] theorem coordinator_notify (i : Nat) (tl : Timeline σ) :
    (tl.notify i).coordinator = tl.coordinator.notify i := by
  rw [notify_eq]

@[simp] theorem backend_notify (i : Nat) (tl : Timeline σ) : (tl.notify i).backend = tl.backend := by
  rw [notify_eq]

@[simp] theorem cancellers_notify (i : Nat) (tl : Timeline σ) :
    (tl.notify i).cancellers = tl.cancellers := by
  rw [notify_eq]

/-! ## The canceller -/

/-- The deadline of a request for shutdown that is made now. -/
def deadline (tl : Timeline σ) : Option Nat := later? tl.now tl.coordinator.timeout

/-- What a canceller logs when it passes the handles that it can. -/
def pollEvents (tl : Timeline σ) (c : Canceller) : List Log.Event :=
  if c.finishedAt.isSome then []
  else
    waitEvents tl.coordinator c.total c.waiter
      (c.waiter.poll tl.coordinator.isNotified tl.now)

theorem pollCanceller_finished {c : Canceller} {τ : Nat} (h : c.finishedAt = some τ)
    (tl : Timeline σ) : tl.pollCanceller c = (c, tl) := by
  simp [pollCanceller, h]

theorem pollCanceller_waiting {c : Canceller} (h : c.finishedAt = none) (tl : Timeline σ) :
    (tl.pollCanceller c).1 =
      { c with
        waiter := c.waiter.poll tl.coordinator.isNotified tl.now
        finishedAt :=
          if (c.waiter.poll tl.coordinator.isNotified tl.now).finished then some tl.now
          else none } := by
  simp [pollCanceller, h]

theorem timeline_pollCanceller (tl : Timeline σ) (c : Canceller) :
    (tl.pollCanceller c).2 = tl.logAll (tl.pollEvents c) := by
  cases h : c.finishedAt with
  | some τ => simp [pollCanceller_finished h, pollEvents, h, logAll]
  | none => simp [pollCanceller, pollEvents, h]

/-! ## Watches -/

structure Watch (σ : Type) where
  timeline : Timeline σ
  canceller : Canceller
  /-- When each handle was notified for the first time. -/
  completed : Nat → Option Nat
  /-- What the request has logged. -/
  logged : List Log.Event

namespace Watch

/-- The watch on a request that has just signalled all handles. -/
def begin (tl : Timeline σ) (coordinator : Coordinator) (completed : Nat → Option Nat) :
    Watch σ where
  timeline := { tl with coordinator }.logAll (coordinator.handles.map signallingEvent)
  canceller := { waiter := .start coordinator tl.now, total := coordinator.handles.length }
  completed
  logged := coordinator.handles.map signallingEvent

def notify (i : Nat) (w : Watch σ) : Watch σ :=
  { w with
    timeline := w.timeline.notify i
    completed := fun j =>
      if j = i then (w.completed j).or (some w.timeline.now) else w.completed j }

/-- Lets the request pass the handles that it can. -/
def poll (w : Watch σ) : Watch σ :=
  { w with
    timeline := (w.timeline.pollCanceller w.canceller).2
    canceller := (w.timeline.pollCanceller w.canceller).1
    logged := w.logged ++ w.timeline.pollEvents w.canceller }

/-- What the waiter is after a look at the handles. -/
def look (w : Watch σ) : Waiter :=
  w.canceller.waiter.poll w.timeline.coordinator.isNotified w.timeline.now

/-- Something else goes on, and has changed the timeline. -/
def act (tl : Timeline σ) (w : Watch σ) : Watch σ := { w with timeline := tl }

def wait (t : Nat) (w : Watch σ) : Watch σ := { w with timeline := { w.timeline with now := t } }

/-- Time passes only while the request cannot pass any handle, and no further than to the time at
which it wakes by itself. -/
inductive Step : Watch σ → Watch σ → Prop where
  | notifies (w : Watch σ) (i : Nat) : Step w (w.notify i)
  | polls (w : Watch σ) : Step w w.poll
  | acts (w : Watch σ) {tl : Timeline σ} (now : tl.now = w.timeline.now)
      (coordinator : tl.coordinator = w.timeline.coordinator) : Step w (w.act tl)
  | waits (w : Watch σ) {t : Nat} (later : w.timeline.now < t)
      (idle : w.poll.canceller = w.canceller)
      (asleep : ∀ d, w.canceller.nextTime = some d → t ≤ d) : Step w (w.wait t)

inductive Runs : Watch σ → Watch σ → Prop where
  | refl (w : Watch σ) : Runs w w
  | step {u v w : Watch σ} (run : Runs u v) (last : Step v w) : Runs u w

theorem Runs.trans {u v w : Watch σ} (h : Runs u v) (k : Runs v w) : Runs u w := by
  induction k with
  | refl => exact h
  | step _ last ih => exact .step ih last

/-! ## What one step keeps -/

section
variable (w : Watch σ)

@[simp] theorem now_poll : w.poll.timeline.now = w.timeline.now := by
  simp [poll, timeline_pollCanceller]

@[simp] theorem coordinator_poll :
    w.poll.timeline.coordinator = w.timeline.coordinator := by
  simp [poll, timeline_pollCanceller]

@[simp] theorem completed_poll : w.poll.completed = w.completed := rfl

theorem poll_of_finished {w : Watch σ} {τ : Nat} (h : w.canceller.finishedAt = some τ) :
    w.poll = w := by
  simp [poll, pollCanceller_finished h, pollEvents, h]

theorem waiter_poll {w : Watch σ} (h : w.canceller.finishedAt = none) :
    w.poll.canceller.waiter = w.look := by
  rw [poll, pollCanceller_waiting h]
  rfl

theorem finishedAt_poll {w : Watch σ} (h : w.canceller.finishedAt = none) :
    w.poll.canceller.finishedAt = if w.look.finished then some w.timeline.now else none := by
  rw [poll, pollCanceller_waiting h]
  rfl

theorem logged_poll {w : Watch σ} (h : w.canceller.finishedAt = none) :
    w.poll.logged = w.logged ++
      waitEvents w.timeline.coordinator w.canceller.total w.canceller.waiter w.look := by
  simp [poll, pollEvents, h, look]

theorem total_poll : w.poll.canceller.total = w.canceller.total := by
  cases h : w.canceller.finishedAt with
  | some τ => rw [poll_of_finished h]
  | none => simp only [poll, pollCanceller_waiting h]

theorem deadline_poll : w.poll.canceller.waiter.deadline = w.canceller.waiter.deadline := by
  cases h : w.canceller.finishedAt with
  | some τ => rw [poll_of_finished h]
  | none => rw [waiter_poll h, look, Waiter.poll]

theorem completed_notify_of_some {w : Watch σ} {i j c : Nat} (h : w.completed j = some c) :
    (w.notify i).completed j = some c := by
  simp [notify, h]

/-- A handle that is notified now was notified before, or is notified for the first time. -/
theorem completed_notify {w : Watch σ} {i j c : Nat} (h : (w.notify i).completed j = some c) :
    w.completed j = some c ∨ (w.completed j = none ∧ j = i ∧ c = w.timeline.now) := by
  by_cases hj : j = i
  · cases hc : w.completed j with
    | some x =>
      rw [completed_notify_of_some hc] at h
      exact .inl h
    | none =>
      simp only [notify, if_pos hj, hc, Option.none_or, Option.some.injEq] at h
      exact .inr ⟨rfl, hj, h.symm⟩
  · simp only [notify, if_neg hj] at h
    exact .inl h

end

/-- The handles, the deadline and the record of notifications while a request that was made at
`tl` is watched. -/
structure Kept (tl : Timeline σ) (w : Watch σ) : Prop where
  total : w.canceller.total = tl.coordinator.handles.length
  length : w.timeline.coordinator.handles.length = tl.coordinator.handles.length
  names : ∀ i, w.timeline.coordinator.nameOf i = tl.coordinator.nameOf i
  timeout : w.timeline.coordinator.timeout = tl.coordinator.timeout
  signalled : ∀ i < tl.coordinator.handles.length, w.timeline.coordinator.isSignalled i = true
  deadline : w.canceller.waiter.deadline = tl.deadline
  started : tl.now ≤ w.timeline.now
  notified : ∀ i < tl.coordinator.handles.length,
    w.timeline.coordinator.isNotified i = (w.completed i).isSome
  recorded : ∀ i c, w.completed i = some c → c ≤ w.timeline.now
  signalling : tl.coordinator.handles.map signallingEvent <+: w.logged

section
variable {tl : Timeline σ} {w v : Watch σ}

theorem Kept.notify (h : Kept tl w) (i : Nat) : Kept tl (w.notify i) where
  total := h.total
  length := by simpa [Watch.notify] using h.length
  names := by simpa [Watch.notify] using h.names
  timeout := by
    rw [← h.timeout, Watch.notify, coordinator_notify]
    rfl
  signalled := by
    intro j hj
    simpa [Watch.notify, Coordinator.isSignalled_notify] using h.signalled j hj
  deadline := h.deadline
  started := by simpa [Watch.notify] using h.started
  notified := by
    intro j hj
    simp only [Watch.notify, coordinator_notify, Coordinator.isNotified_notify, h.length, hj,
      h.notified j hj, decide_true, Bool.and_true]
    by_cases hji : j = i
    · simp [hji]
    · simp [hji, Ne.symm hji]
  recorded := by
    intro j c hc
    rw [show (w.notify i).timeline.now = w.timeline.now from now_notify i _]
    obtain old | ⟨_, _, rfl⟩ := completed_notify hc
    · exact h.recorded j c old
    · exact Nat.le_refl _
  signalling := h.signalling

theorem Kept.poll (h : Kept tl w) : Kept tl w.poll where
  total := (total_poll w).trans h.total
  length := by simpa using h.length
  names := by simpa using h.names
  timeout := by simpa using h.timeout
  signalled := by simpa using h.signalled
  deadline := (deadline_poll w).trans h.deadline
  started := by simpa using h.started
  notified := by simpa using h.notified
  recorded := by simpa using h.recorded
  signalling := h.signalling.trans (List.prefix_append _ _)

theorem Kept.act (h : Kept tl w) {tl' : Timeline σ} (now : tl'.now = w.timeline.now)
    (coordinator : tl'.coordinator = w.timeline.coordinator) : Kept tl (w.act tl') where
  total := h.total
  length := by simpa [Watch.act, coordinator] using h.length
  names := by simpa [Watch.act, coordinator] using h.names
  timeout := by simpa [Watch.act, coordinator] using h.timeout
  signalled := by simpa [Watch.act, coordinator] using h.signalled
  deadline := h.deadline
  started := by simpa [Watch.act, now] using h.started
  notified := by simpa [Watch.act, coordinator] using h.notified
  recorded := by simpa [Watch.act, now] using h.recorded
  signalling := h.signalling

theorem Kept.wait (h : Kept tl w) {t : Nat} (later : w.timeline.now < t) : Kept tl (w.wait t) where
  total := h.total
  length := h.length
  names := h.names
  timeout := h.timeout
  signalled := h.signalled
  deadline := h.deadline
  started := Nat.le_trans h.started (Nat.le_of_lt later)
  notified := h.notified
  recorded := fun i c hc => Nat.le_trans (h.recorded i c hc) (Nat.le_of_lt later)
  signalling := h.signalling

theorem Kept.step (h : Kept tl w) (s : Step w v) : Kept tl v := by
  cases s with
  | notifies i => exact h.notify i
  | polls => exact h.poll
  | acts now coordinator => exact h.act now coordinator
  | waits later _ _ => exact h.wait later

end
end Watch
end MailDispatch.Timeline
