import MailDispatch.Proofs.Shutdown.Looking
import MailDispatch.Proofs.Timeline.Watch

/-! # The phases of a request for shutdown

A request waits, and then its wait is over. While it waits all handles that it has passed
are notified and nobody is abandoned. Once it is over, what was decided stays as it is,
whatever is notified later.
-/
namespace MailDispatch.Timeline.Watch
open Shutdown

variable {σ : Type} {tl : Timeline σ} {w v : Watch σ} {τ : Nat}

/-! ## While the request waits -/

/-- The wait has not gone on until `τ` for nothing: it has just begun, or someone was not
notified before. -/
def HeldUp (tl : Timeline σ) (completed : Nat → Option Nat) (τ : Nat) : Prop :=
  τ = tl.now ∨ ∃ i < tl.coordinator.handles.length, ∀ c, completed i = some c → τ ≤ c

structure Waiting (tl : Timeline σ) (w : Watch σ) : Prop where
  unfinished : w.canceller.finishedAt = none
  passed : ∃ passed, List.range tl.coordinator.handles.length =
      passed ++ w.canceller.waiter.remaining ∧
    ∀ i ∈ passed, w.timeline.coordinator.isNotified i = true
  fresh : w.canceller.waiter.abandoned = []
  in_time : ∀ d, tl.deadline = some d → w.timeline.now ≤ d
  held_up : HeldUp tl w.completed w.timeline.now
  silent : reported w.logged = []

/-- The wait was over at `τ`. -/
structure Over (tl : Timeline σ) (w : Watch σ) (τ : Nat) : Prop where
  finished : w.canceller.finishedAt = some τ
  started : tl.now ≤ τ
  past : τ ≤ w.timeline.now
  in_time : ∀ d, tl.deadline = some d → τ ≤ d
  held_up : HeldUp tl w.completed τ
  among : w.canceller.waiter.abandoned.Sublist (List.range tl.coordinator.handles.length)
  abandoned : ∀ i ∈ w.canceller.waiter.abandoned,
    tl.deadline = some τ ∧ ∀ c, w.completed i = some c → τ ≤ c
  passed : ∀ i < tl.coordinator.handles.length, i ∉ w.canceller.waiter.abandoned →
    expired (w.completed i) τ = true
  report : reported w.logged =
    w.canceller.waiter.abandoned.map (abandonedEvent tl.coordinator) ++
      [finishedEvent tl.coordinator.handles.length w.canceller.waiter.abandoned.length]

/-! ## Notifications, and time that passes -/

theorem le_of_completed_notify {j c : Nat} (old : ∀ c, w.completed j = some c → τ ≤ c)
    (past : τ ≤ w.timeline.now) {i : Nat} (h : (w.notify i).completed j = some c) : τ ≤ c := by
  obtain before | ⟨_, _, rfl⟩ := completed_notify h
  · exact old c before
  · exact past

theorem HeldUp.notify (h : HeldUp tl w.completed τ) (past : τ ≤ w.timeline.now) (i : Nat) :
    HeldUp tl (w.notify i).completed τ := by
  obtain rfl | ⟨j, hj, old⟩ := h
  · exact .inl rfl
  · exact .inr ⟨j, hj, fun c hc => le_of_completed_notify old past hc⟩

theorem Waiting.notify (h : Waiting tl w) (i : Nat) : Waiting tl (w.notify i) where
  unfinished := h.unfinished
  passed := by
    obtain ⟨passed, split, done⟩ := h.passed
    refine ⟨passed, split, fun j hj => ?_⟩
    simp [Watch.notify, Coordinator.isNotified_notify, done j hj]
  fresh := h.fresh
  in_time := by simpa [Watch.notify] using h.in_time
  held_up := by
    have held := h.held_up.notify (Nat.le_refl _) i
    rwa [← now_notify i w.timeline] at held
  silent := h.silent

theorem Over.notify (h : Over tl w τ) (i : Nat) : Over tl (w.notify i) τ where
  finished := h.finished
  started := h.started
  past := by simpa [Watch.notify] using h.past
  in_time := h.in_time
  held_up := h.held_up.notify h.past i
  among := h.among
  abandoned := fun j hj =>
    ⟨(h.abandoned j hj).1, fun c hc => le_of_completed_notify (h.abandoned j hj).2 h.past hc⟩
  passed := by
    intro j hj kept
    obtain ⟨c, hc, le⟩ := exists_of_expired (h.passed j hj kept)
    rw [completed_notify_of_some hc]
    exact expired_some.mpr le
  report := h.report

theorem Waiting.act (h : Waiting tl w) {tl' : Timeline σ} (now : tl'.now = w.timeline.now)
    (coordinator : tl'.coordinator = w.timeline.coordinator) : Waiting tl (w.act tl') where
  unfinished := h.unfinished
  passed := by simpa [Watch.act, coordinator] using h.passed
  fresh := h.fresh
  in_time := by simpa [Watch.act, now] using h.in_time
  held_up := by simpa [Watch.act, now] using h.held_up
  silent := h.silent

theorem Over.act (h : Over tl w τ) {tl' : Timeline σ} (now : tl'.now = w.timeline.now) : Over tl (w.act tl') τ :=
  { h with past := by simpa [Watch.act, now] using h.past }

theorem look_of_idle (unfinished : w.canceller.finishedAt = none)
    (idle : w.poll.canceller = w.canceller) : w.look.finished = false := by
  have same := congrArg Canceller.finishedAt idle
  rw [finishedAt_poll unfinished, unfinished] at same
  simpa using same

/-- The clock goes on only when someone who was not passed is not notified. -/
theorem Waiting.wait (k : Kept tl w) (h : Waiting tl w) {t : Nat}
    (idle : w.poll.canceller = w.canceller)
    (asleep : ∀ d, w.canceller.nextTime = some d → t ≤ d) : Waiting tl (w.wait t) where
  unfinished := h.unfinished
  passed := h.passed
  fresh := h.fresh
  in_time := by
    intro d hd
    apply asleep
    simp [Canceller.nextTime, h.unfinished, k.deadline, hd]
  held_up := by
    -- whoever is next among the remaining is missing now, and so up to the new time
    obtain ⟨more, i, rest, split, -, -, missing⟩ :=
      Waiter.remaining_poll_unfinished (look_of_idle h.unfinished idle)
    obtain ⟨passed, all, -⟩ := h.passed
    have hi : i < tl.coordinator.handles.length := by
      rw [← List.mem_range, all, split]
      simp
    rw [k.notified i hi] at missing
    refine .inr ⟨i, hi, fun c hc => ?_⟩
    rw [show w.completed i = some c from hc] at missing
    cases missing
  silent := h.silent

theorem Over.wait (h : Over tl w τ) {t : Nat} (later : w.timeline.now < t) :
    Over tl (w.wait t) τ :=
  { h with past := Nat.le_trans h.past (Nat.le_of_lt later) }

/-! ## Looking at the handles -/

theorem Waiting.poll_unfinished (h : Waiting tl w) (unfinished : w.look.finished = false) :
    Waiting tl w.poll where
  unfinished := by rw [finishedAt_poll h.unfinished, unfinished]; rfl
  passed := by
    obtain ⟨passed, split, done⟩ := h.passed
    obtain ⟨more, i, rest, before, after, also, -⟩ := Waiter.remaining_poll_unfinished unfinished
    refine ⟨passed ++ more, ?_, ?_⟩
    · rw [waiter_poll h.unfinished, look, after, split, before, List.append_assoc]
    · intro j hj
      rw [coordinator_poll]
      exact (List.mem_append.mp hj).elim (done j) (also j)
  fresh := by
    rw [waiter_poll h.unfinished, look, Waiter.abandoned_poll_unfinished unfinished, h.fresh]
  in_time := by simpa using h.in_time
  held_up := by simpa using h.held_up
  silent := by
    rw [logged_poll h.unfinished, reported_append, h.silent, look,
      reported_waitEvents_unfinished _ _ h.fresh unfinished]
    rfl

/-- A look ends the wait when the deadline has passed or all are notified. -/
theorem Waiting.finished_look_iff (k : Kept tl w) (h : Waiting tl w) :
    w.look.finished = true ↔
      expired tl.deadline w.timeline.now = true ∨
        ∀ i < tl.coordinator.handles.length, w.timeline.coordinator.isNotified i = true := by
  obtain ⟨passed, split, done⟩ := h.passed
  rw [look, Waiter.finished_poll, k.deadline, Bool.or_eq_true, List.all_eq_true]
  refine or_congr_right ⟨fun all i hi => ?_, fun all i hi => ?_⟩
  · rw [← List.mem_range, split] at hi
    exact (List.mem_append.mp hi).elim (done i) (all i)
  · refine all i ?_
    rw [← List.mem_range, split]
    exact List.mem_append_right _ hi

/-- Whoever is not notified at the last look is abandoned, and nobody else. -/
theorem Waiting.abandoned_poll (h : Waiting tl w) (finished : w.look.finished = true) :
    w.poll.canceller.waiter.abandoned =
      (List.range tl.coordinator.handles.length).filter fun i =>
        !w.timeline.coordinator.isNotified i := by
  obtain ⟨passed, split, done⟩ := h.passed
  rw [waiter_poll h.unfinished]
  exact Waiter.abandoned_poll_finished split done h.fresh finished

theorem Waiting.poll_finished (k : Kept tl w) (h : Waiting tl w)
    (finished : w.look.finished = true) : Over tl w.poll w.timeline.now where
  finished := by rw [finishedAt_poll h.unfinished, finished]; rfl
  started := k.started
  past := by simp
  in_time := h.in_time
  held_up := h.held_up
  among := by
    rw [h.abandoned_poll finished]
    exact List.filter_sublist
  abandoned := by
    intro i hi
    rw [h.abandoned_poll finished] at hi
    obtain ⟨hn, missing⟩ := List.mem_filter.mp hi
    rw [List.mem_range] at hn
    rw [k.notified i hn] at missing
    have never : w.completed i = none := by simpa using missing
    refine ⟨?_, fun c hc => ?_⟩
    · -- the look was the last one although someone is missing: the deadline has passed
      have timeUp : expired tl.deadline w.timeline.now = true := by
        refine ((h.finished_look_iff k).mp finished).resolve_right fun all => ?_
        have everyone := all i hn
        rw [k.notified i hn, never] at everyone
        cases everyone
      obtain ⟨d, hd, le⟩ := exists_of_expired timeUp
      rw [hd, Nat.le_antisymm le (h.in_time d hd)]
    · rw [completed_poll, never] at hc
      cases hc
  passed := by
    intro i hn kept
    rw [h.abandoned_poll finished, List.mem_filter, List.mem_range] at kept
    have done : (w.completed i).isSome = true := by
      rw [← k.notified i hn]
      simpa [hn] using kept
    obtain ⟨c, hc⟩ := Option.isSome_iff_exists.mp done
    rw [completed_poll, hc]
    exact expired_some.mpr (k.recorded i c hc)
  report := by
    obtain ⟨passed, split, done⟩ := h.passed
    have same : abandonedEvent w.timeline.coordinator = abandonedEvent tl.coordinator := by
      funext i
      simp only [abandonedEvent, k.names, k.timeout]
    rw [logged_poll h.unfinished, reported_append, h.silent, List.nil_append, look,
      reported_waitEvents_finished _ _ split done h.fresh finished, waiter_poll h.unfinished,
      same, k.total]
    rfl

/-! ## A whole run -/

/-- A request that has signalled all handles waits, or its wait is over. -/
def InPhase (tl : Timeline σ) (w : Watch σ) : Prop := Waiting tl w ∨ ∃ τ, Over tl w τ

theorem InPhase.step (k : Kept tl w) (h : InPhase tl w) (s : Step w v) : InPhase tl v := by
  obtain waiting | ⟨τ, ended⟩ := h
  · cases s with
    | notifies i => exact .inl (waiting.notify i)
    | polls =>
      cases finished : w.look.finished with
      | false => exact .inl (waiting.poll_unfinished finished)
      | true => exact .inr ⟨_, waiting.poll_finished k finished⟩
    | acts now coordinator => exact .inl (waiting.act now coordinator)
    | waits _ idle asleep => exact .inl (waiting.wait k idle asleep)
  · refine .inr ⟨τ, ?_⟩
    cases s with
    | notifies i => exact ended.notify i
    | polls => rwa [poll_of_finished ended.finished]
    | acts now _ => exact ended.act now
    | waits later _ _ => exact ended.wait later

/-- When handles were notified that are notified before the request. -/
structure Earlier (tl : Timeline σ) (before : Nat → Option Nat) : Prop where
  notified : ∀ i < tl.coordinator.handles.length,
    tl.coordinator.isNotified i = (before i).isSome
  past : ∀ i c, before i = some c → c ≤ tl.now

/-- The watch is what a request for shutdown at `tl` has come to, if the handles that are notified
by then were so at the times `before`. -/
def Follows (tl : Timeline σ) (before : Nat → Option Nat) (w : Watch σ) : Prop :=
  ∃ coordinator, tl.coordinator.signal? = some coordinator ∧
    Runs (begin tl coordinator before) w

section
variable {before : Nat → Option Nat} {coordinator : Coordinator}

theorem kept_begin (earlier : Earlier tl before)
    (requested : tl.coordinator.signal? = some coordinator) :
    Kept tl (begin tl coordinator before) where
  total := Coordinator.length_of_signal? requested
  length := by simpa [begin] using Coordinator.length_of_signal? requested
  names := by simpa [begin] using Coordinator.nameOf_of_signal? requested
  timeout := by simpa [begin] using Coordinator.timeout_of_signal? requested
  signalled := by
    intro i hi
    simpa [begin, Coordinator.isSignalled_of_signal? requested] using hi
  deadline := by
    simp [begin, Waiter.start, Timeline.deadline, Coordinator.timeout_of_signal? requested]
  started := by simp [begin]
  notified := by
    intro i hi
    simpa [begin, Coordinator.isNotified_of_signal? requested] using earlier.notified i hi
  recorded := by simpa [begin] using earlier.past
  signalling := by
    have same := Coordinator.signalling_of_signal? requested
    exact ⟨[], by rw [List.append_nil, ← same]; rfl⟩

theorem waiting_begin (requested : tl.coordinator.signal? = some coordinator) :
    Waiting tl (begin tl coordinator before) where
  unfinished := rfl
  passed := ⟨[], by rw [← Coordinator.length_of_signal? requested]; rfl, by simp⟩
  fresh := rfl
  in_time := by
    intro d hd
    simpa [begin] using start_le_later? hd
  held_up := by simp [begin, HeldUp]
  silent := reported_signalling _

theorem Runs.kept_inPhase (k : Kept tl w) (h : InPhase tl w) (run : Runs w v) :
    Kept tl v ∧ InPhase tl v := by
  induction run with
  | refl => exact ⟨k, h⟩
  | step _ last ih => exact ⟨ih.1.step last, ih.2.step ih.1 last⟩

theorem Follows.kept_inPhase (earlier : Earlier tl before) (h : Follows tl before w) :
    Kept tl w ∧ InPhase tl w := by
  obtain ⟨coordinator, requested, run⟩ := h
  exact run.kept_inPhase (kept_begin earlier requested) (.inl (waiting_begin requested))

end

end MailDispatch.Timeline.Watch
