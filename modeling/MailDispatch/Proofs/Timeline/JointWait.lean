import Mathlib.Data.List.Basic
import MailDispatch.Proofs.Timeline.Cancelling
import MailDispatch.Rehearsal.Basic

/-! # One wait for all handles

The handles are waited for one after the other. That comes to the same as one wait for
all of them at once, which is over when each is notified or the common deadline has
passed: neither the time of the return nor, but for handles that are notified at the very
time of the deadline, the choice of those that are abandoned depends on the order.
-/
namespace MailDispatch.Timeline.Watch
open Shutdown

variable {σ : Type} {tl : Timeline σ} {w v : Watch σ} {τ : Nat}

/-! ## The time of the return -/

/-- When one wait for all handles would be over, as far as notifications are known. -/
def due (tl : Timeline σ) (w : Watch σ) : Option Nat :=
  returnTime tl.now tl.deadline ((List.range tl.coordinator.handles.length).map w.completed)

theorem expired_due {x : Nat} :
    expired (due tl w) x = true ↔
      tl.now ≤ x ∧ ∀ i < tl.coordinator.handles.length,
        expired (w.completed i) x = true ∨ expired tl.deadline x = true := by
  rw [due, expired_returnTime, Bool.and_eq_true, expired_some]
  simp

theorem Over.due_eq (h : Over tl w τ) : due tl w = some τ := by
  refine eq_some_iff_expired.mpr ⟨expired_due.mpr ⟨h.started, fun i hi => ?_⟩, fun x hx => ?_⟩
  · by_cases abandoned : i ∈ w.canceller.waiter.abandoned
    · rw [(h.abandoned i abandoned).1]
      exact .inr (expired_some.mpr (Nat.le_refl _))
    · exact .inl (h.passed i hi abandoned)
  · refine Bool.eq_false_iff.mpr fun early => ?_
    obtain ⟨started, all⟩ := expired_due.mp early
    obtain rfl | ⟨i, hi, held⟩ := h.held_up
    · omega
    · obtain done | up := all i hi
      · obtain ⟨c, hc, le⟩ := exists_of_expired done
        have after := held c hc
        omega
      · obtain ⟨d, hd, le⟩ := exists_of_expired up
        have before := h.in_time d hd
        omega

/-- A wait that is due ends as soon as the request looks at the handles. -/
theorem Waiting.finished_of_due (k : Kept tl w) (h : Waiting tl w)
    (due : expired (due tl w) w.timeline.now = true) : w.look.finished = true := by
  rw [h.finished_look_iff k]
  by_cases up : expired tl.deadline w.timeline.now = true
  · exact .inl up
  · refine .inr fun i hi => ?_
    obtain ⟨c, hc, -⟩ := exists_of_expired (((expired_due.mp due).2 i hi).resolve_right up)
    rw [k.notified i hi, hc]
    rfl

/-- The clock does not go past the time at which the wait is due. -/
theorem Waiting.now_le_due (h : Waiting tl w) {x : Nat} (due : expired (due tl w) x = true) :
    w.timeline.now ≤ x := by
  obtain ⟨started, all⟩ := expired_due.mp due
  obtain begun | ⟨i, hi, held⟩ := h.held_up
  · rwa [begun]
  · obtain done | up := all i hi
    · obtain ⟨c, hc, le⟩ := exists_of_expired done
      exact Nat.le_trans (held c hc) le
    · obtain ⟨d, hd, le⟩ := exists_of_expired up
      exact Nat.le_trans (h.in_time d hd) le

/-! ## The handles that are abandoned -/

theorem Over.abandoned_iff (h : Over tl w τ) {i : Nat} (hi : i < tl.coordinator.handles.length)
    (apart : ∀ d, tl.deadline = some d → w.completed i ≠ some d) :
    i ∈ w.canceller.waiter.abandoned ↔ isLate tl.deadline (w.completed i) = true := by
  constructor
  · intro abandoned
    obtain ⟨deadline, after⟩ := h.abandoned i abandoned
    rw [deadline, isLate]
    cases hc : w.completed i with
    | none => rfl
    | some c =>
      have ne : c ≠ τ := fun same => apart τ deadline (by rw [hc, same])
      have le := after c hc
      simp only [expired, Bool.not_eq_eq_eq_not, Bool.not_true, decide_eq_false_iff_not]
      omega
  · intro late
    refine Decidable.byContradiction fun kept => ?_
    cases hd : tl.deadline with
    | none => rw [hd] at late; cases late
    | some d =>
      have done := expired_mono (h.passed i hi kept) (h.in_time d hd)
      rw [hd, isLate, done] at late
      cases late

theorem Over.abandoned_eq_nil (h : Over tl w τ) (endless : tl.deadline = none) :
    w.canceller.waiter.abandoned = [] := by
  refine List.eq_nil_iff_forall_not_mem.mpr fun i hi => ?_
  have deadline := (h.abandoned i hi).1
  rw [endless] at deadline
  cases deadline

/-- What a request comes to that is made at `tl`: one wait for all handles that begins then and
has one deadline. -/
structure JointWait (tl : Timeline σ) (w : Watch σ) : Prop where
  /-- All handles are signalled, which is reported before anything else. -/
  signalled : ∀ i < tl.coordinator.handles.length, w.timeline.coordinator.isSignalled i = true
  signalling : (tl.coordinator.handles.map fun h =>
    { level := .debug, part := .shutdown, message := "signaling shutdown"
      fields := [("handle", .text h.name)] }) <+: w.logged
  recorded : ∀ i < tl.coordinator.handles.length,
    w.timeline.coordinator.isNotified i = (w.completed i).isSome
  /-- The request is over when one wait for all is: not at another time, and before the clock goes
  past that time. -/
  returned : ∀ τ, w.canceller.finishedAt = some τ → due tl w = some τ
  prompt : expired (due tl w) w.timeline.now = true → w.poll.canceller.finishedAt.isSome = true
  punctual : w.canceller.finishedAt = none →
    ∀ x, expired (due tl w) x = true → w.timeline.now ≤ x
  /-- The handles that are abandoned are those that are notified after the deadline. -/
  among : w.canceller.waiter.abandoned.Sublist (List.range tl.coordinator.handles.length)
  late : ∀ τ, w.canceller.finishedAt = some τ → ∀ i < tl.coordinator.handles.length,
    (∀ d, tl.deadline = some d → w.completed i ≠ some d) →
      (i ∈ w.canceller.waiter.abandoned ↔ isLate tl.deadline (w.completed i) = true)
  /-- Whoever is notified at the deadline is abandoned if that comes after the last look. -/
  last_look : w.canceller.finishedAt = none → w.poll.canceller.finishedAt.isSome = true →
    w.poll.canceller.waiter.abandoned =
      (List.range tl.coordinator.handles.length).filter fun i =>
        !w.timeline.coordinator.isNotified i
  /-- Each of them is reported once, and at the end their number. -/
  report : ∀ τ, w.canceller.finishedAt = some τ → reported w.logged =
    ((w.canceller.waiter.abandoned.filterMap fun i => tl.coordinator.handles[i]?).map fun h =>
      { level := .warn, part := .shutdown, message := "handle didn't complete shutdown in time"
        fields :=
          [("handle", .text h.name), ("timeout", .text tl.coordinator.timeout.text)] }) ++
      [{ level := .info, part := .shutdown, message := "shutdown sequence finished"
         fields :=
          [("handles", .whole tl.coordinator.handles.length),
            ("abandoned", .whole w.canceller.waiter.abandoned.length)] }]
  silent : w.canceller.finishedAt = none →
    w.canceller.waiter.abandoned = [] ∧ reported w.logged = []
  /-- Without a deadline nobody is abandoned, and the wait is over when all are notified. -/
  endless : tl.deadline = none →
    w.canceller.waiter.abandoned = [] ∧
      (w.poll.canceller.finishedAt.isSome = true ↔
        ∀ i < tl.coordinator.handles.length, w.timeline.coordinator.isNotified i = true)

/-- Handles that are known by their places are reported under their names. -/
theorem map_abandonedEvent {c : Coordinator} {abandoned : List Nat}
    (among : abandoned.Sublist (List.range c.handles.length)) :
    abandoned.map (abandonedEvent c) =
      (abandoned.filterMap fun i => c.handles[i]?).map fun h =>
        { level := .warn, part := .shutdown, message := "handle didn't complete shutdown in time"
          fields := [("handle", .text h.name), ("timeout", .text c.timeout.text)] } := by
  rw [List.map_filterMap, eq_comm, List.filterMap_eq_map_iff_forall_eq_some]
  intro i hi
  have known : i < c.handles.length := List.mem_range.mp (among.subset hi)
  rw [List.getElem?_eq_getElem known, Option.map_some, abandonedEvent, Coordinator.nameOf,
    List.getElem?_eq_getElem known]
  rfl

theorem isSome_finishedAt_poll (unfinished : w.canceller.finishedAt = none) :
    w.poll.canceller.finishedAt.isSome = w.look.finished := by
  rw [finishedAt_poll unfinished]
  cases w.look.finished with
  | true => rfl
  | false => rfl

theorem Waiting.joint (k : Kept tl w) (h : Waiting tl w) : JointWait tl w where
  signalled := k.signalled
  signalling := k.signalling
  recorded := k.notified
  returned := by simp [h.unfinished]
  prompt := fun due => by rw [isSome_finishedAt_poll h.unfinished, h.finished_of_due k due]
  punctual := fun _ _ due => h.now_le_due due
  among := by simp [h.fresh]
  late := by simp [h.unfinished]
  last_look := by
    intro _ finished
    rw [isSome_finishedAt_poll h.unfinished] at finished
    exact h.abandoned_poll finished
  report := by simp [h.unfinished]
  silent := fun _ => ⟨h.fresh, h.silent⟩
  endless := by
    intro endless
    rw [isSome_finishedAt_poll h.unfinished, h.finished_look_iff k, endless]
    exact ⟨h.fresh, by simp [expired]⟩

theorem Over.joint (k : Kept tl w) (h : Over tl w τ) : JointWait tl w where
  signalled := k.signalled
  signalling := k.signalling
  recorded := k.notified
  returned := by
    intro x hx
    rw [h.finished] at hx
    cases hx
    exact h.due_eq
  prompt := by simp [poll_of_finished h.finished, h.finished]
  punctual := by simp [h.finished]
  among := h.among
  late := fun _ _ _ hi apart => h.abandoned_iff hi apart
  last_look := by simp [h.finished]
  report := fun _ _ => by
    rw [h.report, map_abandonedEvent h.among]
    rfl
  silent := by simp [h.finished]
  endless := by
    intro endless
    have nobody := h.abandoned_eq_nil endless
    refine ⟨nobody, fun _ i hi => ?_, fun _ => by simp [poll_of_finished h.finished, h.finished]⟩
    obtain ⟨c, hc, -⟩ := exists_of_expired (h.passed i hi (by simp [nobody]))
    rw [k.notified i hi, hc]
    rfl

theorem Follows.joint {before : Nat → Option Nat} (earlier : Earlier tl before)
    (h : Follows tl before w) : JointWait tl w := by
  obtain ⟨k, waiting | ⟨τ, ended⟩⟩ := h.kept_inPhase earlier
  · exact waiting.joint k
  · exact ended.joint k

/-! ## The order of the handles -/

/-- At another timeline, at the same time and with the same limit, the same handles were registered
in another order: the handle at `i` is there the one at `f i`. -/
structure Rearranged {σ' : Type} (tl : Timeline σ) (w : Watch σ) (tl' : Timeline σ')
    (w' : Watch σ') (f : Nat → Nat) : Prop where
  now : tl'.now = tl.now
  timeout : tl'.coordinator.timeout = tl.coordinator.timeout
  into : ∀ i < tl.coordinator.handles.length, f i < tl'.coordinator.handles.length
  onto : ∀ j < tl'.coordinator.handles.length, ∃ i < tl.coordinator.handles.length, f i = j
  completed : ∀ i < tl.coordinator.handles.length, w'.completed (f i) = w.completed i

section
variable {σ' : Type} {tl' : Timeline σ'} {w' : Watch σ'} {f : Nat → Nat}

theorem Rearranged.deadline_eq (h : Rearranged tl w tl' w' f) : tl'.deadline = tl.deadline := by
  rw [deadline, deadline, h.now, h.timeout]

theorem Rearranged.due_eq (h : Rearranged tl w tl' w' f) : due tl' w' = due tl w := by
  refine eq_of_expired fun x => ?_
  rw [Bool.eq_iff_iff, expired_due, expired_due, h.now, h.deadline_eq]
  refine and_congr_right fun _ => ⟨fun all i hi => ?_, fun all j hj => ?_⟩
  · rw [← h.completed i hi]
    exact all (f i) (h.into i hi)
  · obtain ⟨i, hi, rfl⟩ := h.onto j hj
    rw [h.completed i hi]
    exact all i hi

theorem Rearranged.mem_iff (h : Rearranged tl w tl' w' f) (joint : JointWait tl w)
    (joint' : JointWait tl' w') {τ τ' i : Nat} (finished : w.canceller.finishedAt = some τ)
    (finished' : w'.canceller.finishedAt = some τ') (hi : i < tl.coordinator.handles.length)
    (apart : ∀ d, tl.deadline = some d → w.completed i ≠ some d) :
    f i ∈ w'.canceller.waiter.abandoned ↔ i ∈ w.canceller.waiter.abandoned := by
  rw [joint.late τ finished i hi apart, joint'.late τ' finished' (f i) (h.into i hi),
    h.deadline_eq, h.completed i hi]
  rw [h.deadline_eq, h.completed i hi]
  exact apart

end

/-! ## The call -/

/-- Waiting for one handle after the other is one wait for all of them with one deadline, and does
not depend on their order. A call that requests shutdown is such a wait: it returns when the wait
is over, or is given up as hung. -/
theorem cancel_waits_jointly {tl : Timeline σ} {before : Nat → Option Nat}
    (unrequested : tl.coordinator.cancelled = false) (earlier : Earlier tl before) :
    (∀ d, tl.deadline = some d ↔
      tl.now + tl.coordinator.timeout.totalNanos < 9223372036854775808 * 1000000000 ∧
        tl.now + tl.coordinator.timeout.totalNanos = d) ∧
    (∀ w, Follows tl before w → JointWait tl w ∧
      ∃ added, w.poll.logged = w.logged ++ added ∧ w.poll.timeline = w.timeline.logAll added) ∧
    (∀ (tl' : Timeline σ) before' w w' f, Earlier tl' before' → Follows tl before w →
      Follows tl' before' w' → Rearranged tl w tl' w' f → due tl' w' = due tl w ∧
        ∀ τ τ', w.canceller.finishedAt = some τ → w'.canceller.finishedAt = some τ' →
          τ' = τ ∧ ∀ i < tl.coordinator.handles.length,
            (∀ d, tl.deadline = some d → w.completed i ≠ some d) →
              (f i ∈ w'.canceller.waiter.abandoned ↔ i ∈ w.canceller.waiter.abandoned)) ∧
    ∃ w, Follows tl before w ∧ w.timeline = tl.cancel.2 ∧
      w.canceller.finishedAt.isSome = tl.cancel.1 ∧
      (tl.cancel.1 = true → due tl w = some tl.cancel.2.now) ∧
      (tl.cancel.1 = false → tl.cancel.2.now = tl.now + patience) := by
  refine ⟨fun d => later?_eq_some_iff, fun w follows => ⟨follows.joint earlier, _, rfl, ?_⟩, ?_, ?_⟩
  · exact timeline_pollCanceller w.timeline w.canceller
  · intro tl' before' w w' f earlier' follows follows' rearranged
    have joint := follows.joint earlier
    have joint' := follows'.joint earlier'
    refine ⟨rearranged.due_eq, fun τ τ' finished finished' => ⟨?_, fun i hi apart =>
      rearranged.mem_iff joint joint' finished finished' hi apart⟩⟩
    have same := rearranged.due_eq
    rw [joint.returned τ finished, joint'.returned τ' finished'] at same
    exact Option.some.inj same
  · have requested : ∃ c, tl.coordinator.signal? = some c := by
      simp [Coordinator.signal?, unrequested]
    obtain ⟨c, requested⟩ := requested
    obtain ⟨w, run, called, returned, just_now, hung⟩ := exists_cancel requested before
    have follows : Follows tl before w := ⟨c, requested, run⟩
    refine ⟨w, follows, called, returned.symm, fun finished => ?_, fun unfinished => ?_⟩
    · rw [returned] at finished
      obtain ⟨τ, hτ⟩ := Option.isSome_iff_exists.mp finished
      rw [(follows.joint earlier).returned τ hτ, just_now τ hτ, called]
    · rw [returned, Option.isSome_eq_false_iff, Option.isNone_iff_eq_none] at unfinished
      rw [← called]
      exact hung unfinished

/-- One handle was notified before, one worker needs less than half a millisecond, and one too
long. -/
theorem slow_worker_is_abandoned :
    let handles : List Handle :=
      [{ name := "early", notified := true }, { name := "quick" }, { name := "slow" }]
    let tl : Timeline Rehearsal :=
      { now := 7, coordinator := ⟨.ofNanos 500000, false, handles⟩
        processes := [⟨0, 1, .worker (.waiting 400000)⟩, ⟨1, 2, .worker (.waiting 700000)⟩]
        backend := Rehearsal.backend, state := {}, wallClock := .latest, operationId := "a" }
    let before : Nat → Option Nat := fun i => if i = 0 then some 3 else none
    tl.coordinator.cancelled = false ∧ Earlier tl before ∧
      (∃ w, Follows tl before w ∧ w.timeline = tl.cancel.2 ∧ due tl w = some 500007 ∧
        2 ∈ w.canceller.waiter.abandoned) ∧
      reported (tl.cancel.2.state.log.map Log.Record.event) =
        [{ level := .warn, part := .shutdown, message := "handle didn't complete shutdown in time"
           fields := [("handle", .text "slow"), ("timeout", .text "500µs")] },
          { level := .info, part := .shutdown, message := "shutdown sequence finished"
            fields := [("handles", .whole 3), ("abandoned", .whole 1)] }] := by
  intro handles tl before
  have earlier : Earlier tl before := by
    refine ⟨by decide, fun i c hc => ?_⟩
    cases (Option.ite_none_right_eq_some.mp hc).2
    decide
  obtain ⟨-, waits, -, w, follows, called, returned, ended, -⟩ :=
    cancel_waits_jointly (show tl.coordinator.cancelled = false from rfl) earlier
  have finished : tl.cancel.1 = true := by decide +kernel
  have now : tl.cancel.2.now = 500007 := by decide +kernel
  have missing : tl.cancel.2.coordinator.isNotified 2 = false := by decide +kernel
  have joint := (waits w follows).1
  have never : w.completed 2 = none := by
    have recorded := joint.recorded 2 (by decide)
    rw [called, missing] at recorded
    exact Option.isNone_iff_eq_none.mp (Option.isSome_eq_false_iff.mp recorded.symm)
  rw [finished] at returned
  obtain ⟨τ, hτ⟩ := Option.isSome_iff_exists.mp returned
  refine ⟨rfl, earlier, ⟨w, follows, called, now ▸ ended finished, ?_⟩, by decide +kernel⟩
  refine (joint.late τ hτ 2 (by decide) (by simp [never])).mpr ?_
  rw [never]
  decide +kernel

/-- A worker that is done at the deadline can be abandoned: here the deadline is the time of the
request, and the worker only reacts to its signal. -/
theorem reaction_at_the_deadline_is_abandoned :
    let tl : Timeline Rehearsal :=
      { now := 1, coordinator := ⟨.ofSeconds 0, false, [{ name := "worker" }]⟩
        processes := [⟨0, 0, .worker (.waiting 0)⟩]
        backend := Rehearsal.backend, state := {}, wallClock := .latest, operationId := "a" }
    ∃ w, Follows tl (fun _ => none) w ∧ w.timeline = tl.cancelInBackground ∧
      tl.deadline = some 1 ∧ w.completed 0 = some 1 ∧
      isLate tl.deadline (w.completed 0) = false ∧
      w.canceller.finishedAt = some 1 ∧ 0 ∈ w.canceller.waiter.abandoned := by
  intro tl
  let signalled : Coordinator := ⟨.ofSeconds 0, true, [{ name := "worker", signalled := true }]⟩
  let asked := begin tl signalled fun _ => none
  let done := asked.poll.notify 0
  have now : tl.cancelInBackground.now = done.timeline.now := by decide +kernel
  have coordinator : tl.cancelInBackground.coordinator = done.timeline.coordinator := by
    decide +kernel
  have run : Runs asked (done.act tl.cancelInBackground) :=
    .step (.step (.step (.refl asked) (.polls asked)) (.notifies _ 0)) (.acts done now coordinator)
  refine ⟨_, ⟨signalled, rfl, run⟩, rfl, ?_, ?_, ?_, ?_, ?_⟩
  all_goals decide +kernel

end MailDispatch.Timeline.Watch
