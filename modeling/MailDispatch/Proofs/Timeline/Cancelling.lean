import MailDispatch.Proofs.Timeline.Phases

/-! # A request on the timeline

The timeline lets everything run that can, then lets the requests look at their handles,
and then jumps to the next time. All of that is made of the steps that a watch allows.
-/
namespace MailDispatch.Timeline
open Shutdown

variable {σ : Type}

/-! ## Activities -/

/-- The second timeline comes of the first one by activities: at the same time, with the same
handles, of which some may have been notified, and with the same requests. -/
inductive Acts : Timeline σ → Timeline σ → Prop where
  | same {tl tl' : Timeline σ} (now : tl'.now = tl.now)
      (coordinator : tl'.coordinator = tl.coordinator)
      (cancellers : tl'.cancellers = tl.cancellers) : Acts tl tl'
  | notify (tl : Timeline σ) (i : Nat) : Acts tl (tl.notify i)
  | trans {tl tl' tl'' : Timeline σ} (first : Acts tl tl') (second : Acts tl' tl'') : Acts tl tl''

namespace Acts

variable {tl tl' : Timeline σ}

theorem refl (tl : Timeline σ) : Acts tl tl := .same rfl rfl rfl

theorem logAll (tl : Timeline σ) (es : List Log.Event) : Acts tl (tl.logAll es) :=
  .same (now_logAll es tl) (coordinator_logAll es tl) (cancellers_logAll es tl)

theorem log_notify (tl : Timeline σ) (e : Log.Event) (i : Nat) : Acts tl ((tl.log e).notify i) :=
  have logged : Acts tl (tl.log e) := .same rfl rfl rfl
  logged.trans (.notify _ i)

theorem execute (tl : Timeline σ) (j : Job) : Acts tl (tl.execute j).2.2 := by
  unfold Timeline.execute
  split
  · split
    · exact refl tl
    · exact refl tl
  · exact .same rfl rfl rfl

theorem pollJob {i : Nat} {j j' : Job} (h : tl.pollJob i j = some (j', tl')) : Acts tl tl' := by
  unfold Timeline.pollJob at h
  split at h
  · cases h
  · obtain ⟨-, rfl⟩ := Prod.mk.inj (Option.some.inj h)
    exact execute tl j
  · obtain ⟨-, rfl⟩ := Prod.mk.inj (Option.some.inj h)
    exact .same rfl rfl rfl
  · obtain ⟨-, rfl⟩ := Prod.mk.inj (Option.some.inj h)
    exact log_notify tl _ i

theorem pollWorker {i : Nat} {x x' : Worker} (h : tl.pollWorker i x = some (x', tl')) :
    Acts tl tl' := by
  unfold Timeline.pollWorker at h
  split at h
  · split at h
    · obtain ⟨-, rfl⟩ := Prod.mk.inj (Option.some.inj h)
      exact refl tl
    · cases h
  · split at h
    · obtain ⟨-, rfl⟩ := Prod.mk.inj (Option.some.inj h)
      exact .notify tl i
    · cases h
  · cases h

theorem pollServer {i : Nat} {s s' : Server} (h : tl.pollServer i s = some (s', tl')) :
    Acts tl tl' := by
  obtain ⟨⟨t, events⟩, -, h⟩ := Option.map_eq_some_iff.mp h
  obtain ⟨-, rfl⟩ := Prod.mk.inj h
  refine .trans (logAll tl events) ?_
  split
  · exact .notify _ i
  · exact refl _

theorem pollPool {i : Nat} {closed closed' : Bool}
    (h : tl.pollPool i closed = some (closed', tl')) : Acts tl tl' := by
  unfold Timeline.pollPool at h
  split at h
  · cases h
  · obtain ⟨-, rfl⟩ := Prod.mk.inj (Option.some.inj h)
    exact log_notify tl _ i

theorem pollProcess {p p' : Process} (h : tl.pollProcess p = some (p', tl')) : Acts tl tl' := by
  unfold Timeline.pollProcess at h
  split at h
  all_goals
    obtain ⟨⟨x, next⟩, step, h⟩ := Option.map_eq_some_iff.mp h
    obtain ⟨-, rfl⟩ := Prod.mk.inj h
  · exact pollWorker step
  · exact pollJob step
  · exact pollServer step
  · exact pollPool step

theorem pollProcesses (tl : Timeline σ) (ps : List Process) :
    Acts tl (tl.pollProcesses ps).2.2 := by
  induction ps generalizing tl with
  | nil => exact refl tl
  | cons p ps ih =>
    unfold Timeline.pollProcesses
    split
    · next step => exact .trans (pollProcess step) (ih _)
    · exact ih tl

theorem runProcesses (fuel : Nat) (tl : Timeline σ) : Acts tl (tl.runProcesses fuel) := by
  induction fuel generalizing tl with
  | zero => exact refl tl
  | succ fuel ih =>
    let next := { (tl.pollProcesses tl.processes).2.2 with
      processes := (tl.pollProcesses tl.processes).2.1 }
    have once : Acts tl next := .trans (pollProcesses tl tl.processes) (.same rfl rfl rfl)
    change Acts tl (if (tl.pollProcesses tl.processes).1 then next.runProcesses fuel else next)
    split
    · exact once.trans (ih next)
    · exact once

theorem now_eq (h : Acts tl tl') : tl'.now = tl.now := by
  induction h with
  | same now _ _ => exact now
  | notify tl i => exact now_notify i tl
  | trans _ _ ih ih' => exact ih'.trans ih

theorem cancellers_eq (h : Acts tl tl') : tl'.cancellers = tl.cancellers := by
  induction h with
  | same _ _ cancellers => exact cancellers
  | notify tl i => exact cancellers_notify i tl
  | trans _ _ ih ih' => exact ih'.trans ih

end Acts

/-! ## Requests -/

/-- What a request passes depends on nothing but the time and the handles. -/
theorem pollCanceller_congr {tl tl' : Timeline σ} (now : tl'.now = tl.now)
    (coordinator : tl'.coordinator = tl.coordinator) (c : Canceller) :
    (tl'.pollCanceller c).1 = (tl.pollCanceller c).1 := by
  cases h : c.finishedAt with
  | some τ => rw [pollCanceller_finished h, pollCanceller_finished h]
  | none => rw [pollCanceller_waiting h, pollCanceller_waiting h, now, coordinator]

theorem pollCanceller_pollCanceller (tl : Timeline σ) (c : Canceller) :
    (tl.pollCanceller (tl.pollCanceller c).1).1 = (tl.pollCanceller c).1 := by
  cases h : c.finishedAt with
  | some τ => rw [pollCanceller_finished h, pollCanceller_finished h]
  | none =>
    rw [pollCanceller_waiting h]
    cases finished : (c.waiter.poll tl.coordinator.isNotified tl.now).finished with
    | true => rw [pollCanceller_finished rfl]
    | false =>
      rw [pollCanceller_waiting rfl]
      simp only [Waiter.poll_poll, finished]

theorem pollCancellers_same (tl : Timeline σ) (cs : List Canceller) :
    (tl.pollCancellers cs).2.now = tl.now ∧
      (tl.pollCancellers cs).2.coordinator = tl.coordinator := by
  induction cs generalizing tl with
  | nil => exact ⟨rfl, rfl⟩
  | cons c cs ih =>
    obtain ⟨now, coordinator⟩ := ih (tl.pollCanceller c).2
    rw [timeline_pollCanceller, now_logAll, ← timeline_pollCanceller] at now
    rw [timeline_pollCanceller, coordinator_logAll, ← timeline_pollCanceller] at coordinator
    exact ⟨now, coordinator⟩

theorem pollCancellers_concat (tl : Timeline σ) (cs : List Canceller) (c : Canceller) :
    tl.pollCancellers (cs ++ [c]) =
      ((tl.pollCancellers cs).1 ++ [((tl.pollCancellers cs).2.pollCanceller c).1],
        ((tl.pollCancellers cs).2.pollCanceller c).2) := by
  induction cs generalizing tl with
  | nil => rfl
  | cons d cs ih =>
    simp only [List.cons_append, pollCancellers, ih]

namespace Watch

variable {w : Watch σ}

theorem exists_runs_of_acts {tl tl' : Timeline σ} (h : Acts tl tl') :
    ∀ {w : Watch σ}, w.timeline = tl →
      ∃ v, Runs w v ∧ v.timeline = tl' ∧ v.canceller = w.canceller := by
  induction h with
  | same now coordinator _ =>
    rintro w rfl
    exact ⟨_, .step (.refl w) (.acts w now coordinator), rfl, rfl⟩
  | notify tl i =>
    rintro w rfl
    exact ⟨_, .step (.refl w) (.notifies w i), rfl, rfl⟩
  | trans _ _ ih ih' =>
    intro w hw
    obtain ⟨u, run, hu, same⟩ := ih hw
    obtain ⟨v, run', hv, same'⟩ := ih' hu
    exact ⟨v, run.trans run', hv, same'.trans same⟩

theorem canceller_poll_act (w : Watch σ) {tl : Timeline σ} (now : tl.now = w.timeline.now)
    (coordinator : tl.coordinator = w.timeline.coordinator) :
    (w.act tl).poll.canceller = w.poll.canceller :=
  pollCanceller_congr now coordinator w.canceller

theorem canceller_poll_poll (w : Watch σ) : w.poll.poll.canceller = w.poll.canceller :=
  (pollCanceller_congr (now_poll w) (coordinator_poll w) w.poll.canceller).trans
    (pollCanceller_pollCanceller w.timeline w.canceller)

theorem just_now_poll (h : ∀ τ, w.canceller.finishedAt = some τ → τ = w.timeline.now) :
    ∀ τ, w.poll.canceller.finishedAt = some τ → τ = w.poll.timeline.now := by
  intro τ hτ
  rw [now_poll]
  cases first : w.canceller.finishedAt with
  | some x =>
    rw [poll_of_finished first] at hτ
    exact h τ hτ
  | none =>
    rw [finishedAt_poll first] at hτ
    split at hτ
    · exact (Option.some.inj hτ).symm
    · cases hτ

/-- The request is the last one on the timeline, and if it is over, then just now. -/
structure Listed (w : Watch σ) : Prop where
  last : w.timeline.cancellers.getLast? = some w.canceller
  just_now : ∀ τ, w.canceller.finishedAt = some τ → τ = w.timeline.now

theorem exists_settle (h : Listed w) :
    ∃ v, Runs w v ∧ v.timeline = w.timeline.settle ∧ v.timeline.now = w.timeline.now ∧
      Listed v ∧ v.poll.canceller = v.canceller := by
  let running := w.timeline.runProcesses rounds
  have acts : Acts w.timeline running := Acts.runProcesses _ _
  obtain ⟨u, run, hu, same⟩ := exists_runs_of_acts acts rfl
  obtain ⟨front, split⟩ := List.getLast?_eq_some_iff.mp h.last
  -- the requests before it look first, which changes neither the time nor the handles
  let others := running.pollCancellers front
  have now : others.2.now = u.timeline.now := by
    rw [hu]
    exact (pollCancellers_same running front).1
  have coordinator : others.2.coordinator = u.timeline.coordinator := by
    rw [hu]
    exact (pollCancellers_same running front).2
  let looked := u.act others.2
  have settled : w.timeline.settle =
      { looked.poll.timeline with cancellers := others.1 ++ [looked.poll.canceller] } := by
    have cancellers : running.cancellers = front ++ [u.canceller] := by
      rw [acts.cancellers_eq, split, same]
    change { (running.pollCancellers running.cancellers).2 with
      cancellers := (running.pollCancellers running.cancellers).1 } = _
    rw [cancellers, pollCancellers_concat]
    rfl
  have hnow : w.timeline.settle.now = looked.poll.timeline.now := by rw [settled]
  have hcoordinator :
      w.timeline.settle.coordinator = looked.poll.timeline.coordinator := by rw [settled]
  have before : looked.timeline.now = w.timeline.now := by
    rw [← acts.now_eq, ← hu]
    exact now
  refine ⟨looked.poll.act w.timeline.settle, ?_, rfl, ?_, ⟨?_, ?_⟩, ?_⟩
  · exact ((run.step (.acts u now coordinator)).step (.polls looked)).step
      (.acts looked.poll hnow hcoordinator)
  · exact hnow.trans ((now_poll looked).trans before)
  · simp [Watch.act, settled]
  · intro τ hτ
    refine (just_now_poll (fun x hx => ?_) τ hτ).trans hnow.symm
    exact (h.just_now x (same ▸ hx)).trans before.symm
  · rw [canceller_poll_act looked.poll hnow hcoordinator]
    exact canceller_poll_poll looked

/-! ## Time -/

/-- A request that waits and has nothing to do wakes at a later time, if at all. -/
theorem now_lt_nextTime (unfinished : w.canceller.finishedAt = none)
    (idle : w.poll.canceller = w.canceller) {d : Nat} (hd : w.canceller.nextTime = some d) :
    w.timeline.now < d := by
  have early := look_of_idle unfinished idle
  rw [look, Waiter.finished_poll, Bool.or_eq_false_iff] at early
  have deadline : w.canceller.waiter.deadline = some d := by
    simpa [Canceller.nextTime, unfinished] using hd
  have notYet := early.1
  rw [deadline] at notYet
  simpa [expired] using notYet

/-- The timeline wakes no later than the request does. -/
theorem exists_nextTime (h : Listed w) (unfinished : w.canceller.finishedAt = none)
    (idle : w.poll.canceller = w.canceller) {d : Nat} (hd : w.canceller.nextTime = some d) :
    ∃ t, w.timeline.nextTime = some t ∧ t ≤ d := by
  have member : d ∈ (w.timeline.processes.filterMap Process.nextTime ++
      w.timeline.cancellers.filterMap Canceller.nextTime).filter (w.timeline.now < ·) := by
    rw [List.mem_filter, List.mem_append, List.mem_filterMap, List.mem_filterMap]
    exact ⟨.inr ⟨w.canceller, List.mem_of_getLast? h.last, hd⟩,
      decide_eq_true (now_lt_nextTime unfinished idle hd)⟩
  obtain ⟨t, ht⟩ := Option.isSome_iff_exists.mp (List.isSome_min?_of_mem member)
  exact ⟨t, ht, (List.min?_eq_some_iff.mp ht).2 d member⟩

theorem lastFinished_eq (h : Listed w) :
    lastFinished w.timeline = w.canceller.finishedAt.isSome := by
  rw [lastFinished, h.last]

/-- Where the request has nothing to do, the clock may go on up to the time at which it wakes. -/
theorem runs_wait (h : Listed w) (unfinished : w.canceller.finishedAt = none)
    (idle : w.poll.canceller = w.canceller) {t : Nat} (later : w.timeline.now ≤ t)
    (asleep : ∀ d, w.canceller.nextTime = some d → t ≤ d) :
    Runs w (w.wait t) ∧ Listed (w.wait t) := by
  refine ⟨?_, h.last, fun τ hτ => ?_⟩
  · obtain rfl | lt := Nat.eq_or_lt_of_le later
    · exact .refl w
    · exact .step (.refl w) (.waits w lt idle asleep)
  · rw [show w.canceller.finishedAt = some τ from hτ] at unfinished
    cases unfinished

theorem lt_nextTime {tl : Timeline σ} {t : Nat} (h : tl.nextTime = some t) : tl.now < t := by
  have member := (List.min?_eq_some_iff.mp h).1
  simpa using (List.mem_filter.mp member).2

/-- The clock is let run until the request is over, or as long as it may. -/
theorem exists_advance (limit fuel : Nat) (h : Listed w) (within : w.timeline.now ≤ limit)
    (enough : limit < w.timeline.now + fuel) :
    ∃ v, Runs w v ∧ v.timeline = advance lastFinished limit fuel w.timeline ∧ Listed v ∧
      (v.canceller.finishedAt = none → v.timeline.now = limit) := by
  induction fuel generalizing w with
  | zero =>
    -- the clock goes on by a nanosecond at least, so the fuel does not run out before the time does
    omega
  | succ fuel ih =>
    obtain ⟨v, run, hv, now, listed, idle⟩ := exists_settle h
    rw [advance, ← hv, lastFinished_eq listed]
    cases finished : v.canceller.finishedAt with
    | some τ => exact ⟨v, run, rfl, listed, by simp [finished]⟩
    | none =>
      have wakes := fun d => exists_nextTime listed finished idle (d := d)
      cases next : v.timeline.nextTime with
      | none =>
        obtain ⟨waits, after⟩ := runs_wait listed finished idle (now ▸ within) (by
          intro d hd
          obtain ⟨t, ht, -⟩ := wakes d hd
          rw [next] at ht
          cases ht)
        exact ⟨_, run.trans waits, rfl, after, fun _ => rfl⟩
      | some t =>
        have later : v.timeline.now < t := lt_nextTime next
        have asleep : ∀ d, v.canceller.nextTime = some d → t ≤ d := by
          intro d hd
          obtain ⟨s, hs, le⟩ := wakes d hd
          rw [next] at hs
          cases hs
          exact le
        by_cases le : t ≤ limit
        · obtain ⟨waits, after⟩ := runs_wait listed finished idle (Nat.le_of_lt later) asleep
          obtain ⟨u, rest, hu, last, stop⟩ := ih after le (by
            change limit < t + fuel
            omega)
          refine ⟨u, (run.trans waits).trans rest, ?_, last, stop⟩
          rw [hu]
          simp only [Option.isSome_none, Bool.false_eq_true, if_false, if_pos le]
          rfl
        · obtain ⟨waits, after⟩ := runs_wait listed finished idle (now ▸ within) (t := limit)
            fun d hd => by have := asleep d hd; omega
          refine ⟨_, run.trans waits, ?_, after, fun _ => rfl⟩
          simp only [Option.isSome_none, Bool.false_eq_true, if_false, if_neg le]
          rfl

/-- A call that requests shutdown first makes a run, and returns when its request is over. -/
theorem exists_cancel {tl : Timeline σ} {coordinator : Coordinator}
    (requested : tl.coordinator.signal? = some coordinator) (before : Nat → Option Nat) :
    ∃ v, Runs (begin tl coordinator before) v ∧ v.timeline = tl.cancel.2 ∧
      tl.cancel.1 = v.canceller.finishedAt.isSome ∧
      (∀ τ, v.canceller.finishedAt = some τ → τ = v.timeline.now) ∧
      (v.canceller.finishedAt = none → v.timeline.now = tl.now + patience) := by
  let first := (begin tl coordinator before).poll
  have begun : tl.beginCancel = (first.canceller, first.timeline) := by
    rw [beginCancel, requested]
    simp only [first, poll, begin, now_logAll]
  let started := first.act
    { first.timeline with cancellers := first.timeline.cancellers ++ [first.canceller] }
  have now : started.timeline.now = tl.now := by
    change first.timeline.now = tl.now
    simp [first, begin]
  have listed : Listed started := by
    refine ⟨by simp [started, Watch.act], fun τ hτ => ?_⟩
    exact just_now_poll (w := begin tl coordinator before) (fun x hx => by cases hx) τ hτ
  obtain ⟨v, run, hv, last, stop⟩ := exists_advance (started.timeline.now + patience)
    (patience + 1) listed (Nat.le_add_right _ _) (by omega)
  have called : tl.cancel =
      (lastFinished v.timeline,
        { v.timeline with cancellers := v.timeline.cancellers.dropLast }) := by
    rw [hv, cancel, begun]
    rfl
  refine ⟨v.act tl.cancel.2, ?_, rfl, ?_, ?_, ?_⟩
  · have from_start : Runs (begin tl coordinator before) started :=
      .step (.step (.refl _) (.polls _)) (.acts first rfl rfl)
    exact (from_start.trans run).step (.acts v (by rw [called]) (by rw [called]))
  · rw [called]
    exact lastFinished_eq last
  · intro τ hτ
    rw [last.just_now τ hτ, called]
    rfl
  · intro unfinished
    rw [called, ← now]
    exact stop unfinished

end Watch
end MailDispatch.Timeline
