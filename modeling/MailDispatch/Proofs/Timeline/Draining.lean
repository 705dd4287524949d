import MailDispatch.Proofs.Timeline.JointWait
import MailDispatch.Proofs.Timeline.Serving

/-! # Draining within a request for shutdown

The server and the request for shutdown are watched at once, on one timeline. The clock stands
still while either of them has something to do, and stops where either of them wakes. Otherwise
they do not know of each other, so what holds in all runs of one holds here as well.

The limit of draining begins when the handle is signalled, and the deadline of the request does
too. A limit that is shorter comes first, and at that time the handle is notified.
-/
namespace MailDispatch.Timeline
open Shutdown Time

variable {σ : Type}

structure Draining (σ : Type) where
  watch : Watch σ
  serving : Serving σ

namespace Draining

/-- The request sees of a step of serving that the handle is notified, if it is. -/
def sees (handle : Nat) (phase : ServerPhase) (tl : Timeline σ) (w : Watch σ) : Watch σ :=
  (if phase.result?.isSome then w.notify handle else w).act tl

inductive Step : Draining σ → Draining σ → Prop where
  | goes (b : Draining σ) {phase : ServerPhase} {tl : Timeline σ}
      (polled : b.serving.poll = some (phase, tl)) :
    Step b ⟨sees b.serving.handle phase tl b.watch, b.serving.go phase tl⟩
  | ends (b : Draining σ) (e : ServerEnd) (first : b.serving.ended = none)
      (awaited : b.serving.returned = none) : Step b ⟨b.watch, b.serving.finish e⟩
  | looks (b : Draining σ) : Step b ⟨b.watch.poll, b.serving.act b.watch.poll.timeline⟩
  | notifies (b : Draining σ) (i : Nat) :
    Step b ⟨b.watch.notify i, b.serving.act (b.watch.notify i).timeline⟩
  | acts (b : Draining σ) {tl : Timeline σ} (now : tl.now = b.watch.timeline.now)
      (coordinator : tl.coordinator = b.watch.timeline.coordinator) :
    Step b ⟨b.watch.act tl, b.serving.act tl⟩
  | waits (b : Draining σ) {t : Nat} (later : b.watch.timeline.now < t)
      (idle : b.watch.poll.canceller = b.watch.canceller)
      (asleep : ∀ d, b.watch.canceller.nextTime = some d → t ≤ d) (rest : b.serving.AtRest)
      (drains : ∀ d, b.serving.phase.nextTime = some d → t ≤ d) :
    Step b ⟨b.watch.wait t, b.serving.wait t⟩

abbrev Runs : Draining σ → Draining σ → Prop := Relation.ReflTransGen Step

/-! ## What one step keeps -/

structure Kept (tl : Timeline σ) (before : Nat → Option Nat) (handle : Nat) (b : Draining σ) :
    Prop where
  together : b.serving.timeline = b.watch.timeline
  follows : Watch.Follows tl before b.watch
  serving : b.serving.Kept
  handle_eq : b.serving.handle = handle
  /-- The limit of draining comes before the deadline. -/
  early : ∃ c, b.serving.signalledAt = some c ∧
    c + b.serving.drain.totalNanos < tl.now + tl.coordinator.timeout.totalNanos
  positive : 0 < tl.coordinator.timeout.totalNanos
  /-- When serving is over the handle has been notified. -/
  completed : ∀ τ, b.serving.returned = some τ →
    ∃ x, b.watch.completed handle = some x ∧ x ≤ max tl.now τ

section
variable {tl : Timeline σ} {before : Nat → Option Nat} {handle : Nat} {drain : Span}
variable {b b' : Draining σ}

theorem follows_tail {w v : Watch σ} (h : Watch.Follows tl before w) (last : Watch.Step w v) :
    Watch.Follows tl before v := by
  obtain ⟨coordinator, requested, run⟩ := h
  exact ⟨coordinator, requested, run.step last⟩

theorem follows_sees {w : Watch σ} (h : Watch.Follows tl before w) {phase : ServerPhase}
    {tl' : Timeline σ} (now : tl'.now = w.timeline.now)
    (coordinator : tl'.coordinator = if phase.result?.isSome then w.timeline.coordinator.notify handle
      else w.timeline.coordinator) : Watch.Follows tl before (sees handle phase tl' w) := by
  unfold sees
  split
  · next finished =>
    rw [if_pos finished] at coordinator
    have notified : (w.notify handle).timeline.coordinator =
      w.timeline.coordinator.notify handle := coordinator_notify handle w.timeline
    have still : (w.notify handle).timeline.now = w.timeline.now := now_notify handle w.timeline
    refine follows_tail (follows_tail h (.notifies w handle)) (.acts _ ?_ ?_)
    · exact now.trans still.symm
    · exact coordinator.trans notified.symm
  · next running =>
    rw [if_neg running] at coordinator
    exact follows_tail h (.acts w now coordinator)

/-- A time at which the handle was notified by then, whoever has done it. -/
theorem exists_completed_notify {w : Watch σ} {i : Nat}
    (past : ∀ x, w.completed i = some x → x ≤ w.timeline.now) :
    ∃ x, (w.notify i).completed i = some x ∧ x ≤ w.timeline.now := by
  cases hold : w.completed i with
  | some x => exact ⟨x, Watch.completed_notify_of_some hold, past x hold⟩
  | none => exact ⟨w.timeline.now, by simp [Watch.notify, hold], Nat.le_refl _⟩

theorem completed_sees {w : Watch σ} {phase : ServerPhase} (tl : Timeline σ) {x : Nat}
    (h : w.completed handle = some x) : (sees handle phase tl w).completed handle = some x := by
  unfold sees
  split
  · exact Watch.completed_notify_of_some h
  · exact h

/-- Serving goes on. -/
theorem Kept.go (h : Kept tl before handle b) (earlier : Watch.Earlier tl before)
    {phase : ServerPhase} {tl' : Timeline σ} (polled : b.serving.poll = some (phase, tl')) :
    Kept tl before handle
      ⟨sees b.serving.handle phase tl' b.watch, b.serving.go phase tl'⟩ where
  together := rfl
  follows := by
    refine follows_sees h.follows ?_ ?_
    · rw [← h.together]
      exact Serving.now_of_poll polled
    · rw [← h.together]
      exact Serving.coordinator_of_poll polled
  serving := h.serving.go polled
  handle_eq := h.handle_eq
  early := h.early
  positive := h.positive
  completed := by
    intro τ hτ
    rw [h.handle_eq]
    by_cases finished : phase.result?.isSome = true
    · rw [Serving.returned_go finished, Option.some.injEq, h.together] at hτ
      obtain rfl := hτ
      obtain ⟨x, notified, past⟩ :=
        exists_completed_notify ((h.follows.kept_inPhase earlier).1.recorded handle)
      refine ⟨x, ?_, Nat.le_trans past (Nat.le_max_right _ _)⟩
      rw [sees, if_pos finished]
      exact notified
    · have running : (b.serving.go phase tl').returned = b.serving.returned := if_neg finished
      rw [running] at hτ
      obtain ⟨x, done, past⟩ := h.completed τ hτ
      exact ⟨x, completed_sees tl' done, past⟩

/-- What the request does, or anybody else. -/
theorem Kept.aside (h : Kept tl before handle b) {w : Watch σ} (last : Watch.Step b.watch w)
    (now : w.timeline.now = b.watch.timeline.now)
    (signalled : ∀ i,
      w.timeline.coordinator.isSignalled i = b.watch.timeline.coordinator.isSignalled i)
    (notified : ∀ i, b.watch.timeline.coordinator.isNotified i = true →
      w.timeline.coordinator.isNotified i = true)
    (length : w.timeline.coordinator.handles.length = b.watch.timeline.coordinator.handles.length)
    (completed : ∀ i x, b.watch.completed i = some x → w.completed i = some x) :
    Kept tl before handle ⟨w, b.serving.act w.timeline⟩ where
  together := rfl
  follows := follows_tail h.follows last
  serving := by
    refine h.serving.act ?_ ?_ ?_ ?_
    all_goals rw [h.together]
    · exact now
    · exact fun hs => (signalled _).trans hs
    · exact notified _
    · exact Nat.le_of_eq length.symm
  handle_eq := h.handle_eq
  early := by
    obtain ⟨c, hc, limit⟩ := h.early
    exact ⟨c, Option.or_eq_some_iff.mpr (.inl hc), limit⟩
  positive := h.positive
  completed := by
    intro τ hτ
    obtain ⟨x, done, past⟩ := h.completed τ hτ
    exact ⟨x, completed handle x done, past⟩

theorem Kept.step (h : Kept tl before handle b) (earlier : Watch.Earlier tl before)
    (s : Step b b') : Kept tl before handle b' := by
  cases s with
  | goes polled => exact h.go earlier polled
  | ends e _ awaited =>
    exact ⟨h.together, h.follows, h.serving.finish e awaited, h.handle_eq, h.early, h.positive,
      h.completed⟩
  | looks =>
    have same := Watch.coordinator_poll b.watch
    refine h.aside (.polls _) (Watch.now_poll _) ?_ ?_ ?_ fun _ _ hx => hx
    all_goals rw [same]
    · exact fun _ => rfl
    · exact fun _ hn => hn
  | notifies i =>
    have notified : (b.watch.notify i).timeline.coordinator = _ := coordinator_notify i _
    refine h.aside (.notifies _ i) (now_notify i _) ?_ ?_ ?_ fun _ _ => Watch.completed_notify_of_some
    all_goals rw [notified]
    · exact Coordinator.isSignalled_notify _ i
    · intro j hj
      rw [Coordinator.isNotified_notify, hj, Bool.true_or]
    · exact Coordinator.length_notify _ i
  | @acts tl' now coordinator =>
    have same : (b.watch.act tl').timeline.coordinator = _ := coordinator
    refine h.aside (.acts _ now coordinator) now ?_ ?_ ?_ fun _ _ hx => hx
    all_goals rw [same]
    · exact fun _ => rfl
    · exact fun _ hn => hn
  | @waits t later idle asleep rest drains =>
    refine ⟨?_, follows_tail h.follows (.waits _ later idle asleep), ?_, h.handle_eq, h.early,
      h.positive, h.completed⟩
    · exact congrArg (fun tl : Timeline σ => { tl with now := t }) h.together
    · refine h.serving.wait ?_ rest drains
      rw [h.together]
      exact later

theorem Kept.runs (h : Kept tl before handle b) (earlier : Watch.Earlier tl before)
    (run : Runs b b') : Kept tl before handle b' := by
  induction run with
  | refl => exact h
  | tail _ last ih => exact ih.step earlier last

theorem totalNanos_shorter_le (timeout drain : Span) :
    (shorter timeout drain).totalNanos ≤ drain.totalNanos := by
  rw [totalNanos_shorter]
  exact Nat.min_le_right _ _

/-- The request is made while the server runs. -/
theorem Kept.running {first : Timeline σ} {s : Serving σ} {coordinator : Coordinator}
    (registered : handle < first.coordinator.handles.length)
    (run : Serving.Runs (.start first handle drain) s) (earlier : Watch.Earlier s.timeline before)
    (requested : s.timeline.coordinator.signal? = some coordinator)
    (shorter : drain.totalNanos < s.timeline.coordinator.timeout.totalNanos) :
    Kept s.timeline before handle ⟨.begin s.timeline coordinator before,
      s.act (Watch.begin s.timeline coordinator before).timeline⟩ := by
  have kept := (Serving.Kept.start registered drain).runs run
  obtain ⟨same, granted⟩ := run.same
  let begun := (Watch.begin s.timeline coordinator before).timeline
  have now : begun.now = s.timeline.now := now_logAll _ _
  have signalled : begun.coordinator = coordinator := coordinator_logAll _ _
  have length := Coordinator.length_of_signal? requested
  have isSignalled : begun.coordinator.isSignalled s.handle = true := by
    rw [signalled, Coordinator.isSignalled_of_signal? requested]
    exact decide_eq_true kept.registered
  have acted : (s.act begun).Kept := by
    refine kept.act now (fun _ => isSignalled) ?_ ?_
    · rw [signalled, Coordinator.isNotified_of_signal? requested]
      exact id
    · exact Nat.le_of_eq (by rw [signalled, length])
  refine ⟨rfl, ⟨coordinator, requested, .refl _⟩, acted, same, ?_, Nat.zero_lt_of_lt shorter, ?_⟩
  · obtain ⟨c, hc⟩ := Option.isSome_iff_exists.mp (acted.signalled.symm.trans isSignalled)
    have past : c ≤ s.timeline.now := Nat.le_trans (acted.past c hc) (Nat.le_of_eq now)
    have short : s.drain.totalNanos ≤ drain.totalNanos := by
      rw [granted]
      exact totalNanos_shorter_le _ _
    exact ⟨c, hc, Nat.add_lt_add_of_le_of_lt past (Nat.lt_of_le_of_lt short shorter)⟩
  · intro τ hτ
    have notified := kept.notified (Option.isSome_of_eq_some hτ)
    rw [earlier.notified _ kept.registered] at notified
    obtain ⟨x, hx⟩ := Option.isSome_iff_exists.mp notified
    exact ⟨x, (congrArg before same).symm.trans hx,
      Nat.le_trans (earlier.past _ x hx) (Nat.le_max_left _ _)⟩

end

end Draining
end MailDispatch.Timeline
