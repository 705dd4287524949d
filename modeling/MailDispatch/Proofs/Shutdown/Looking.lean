import MailDispatch.Shutdown.Waiting

/-! # Looking which handles are done

A wait looks at its handles from time to time and passes those it can. Only the last look
abandons anyone, and what it reports are those that it abandons.
-/
namespace MailDispatch.Shutdown

namespace Waiter

variable {notified : Nat → Bool} {now n : Nat} {w : Waiter} {passed : List Nat}

theorem finished_poll :
    (w.poll notified now).finished = (expired w.deadline now || w.remaining.all notified) := by
  cases h : expired w.deadline now with
  | false => exact (finished_poll_early h).1
  | true => exact (finished_poll_expired h).1

theorem abandoned_poll_unfinished (unfinished : (w.poll notified now).finished = false) :
    (w.poll notified now).abandoned = w.abandoned := by
  rw [finished_poll, Bool.or_eq_false_iff] at unfinished
  exact (finished_poll_early unfinished.1).2

/-- Those who are not notified are among those who were not passed. -/
theorem filter_missing (split : List.range n = passed ++ w.remaining)
    (done : ∀ i ∈ passed, notified i = true) :
    (List.range n).filter (fun i => !notified i) = w.remaining.filter fun i => !notified i := by
  rw [split, List.filter_append, List.filter_eq_nil_iff.mpr, List.nil_append]
  intro i hi
  simp [done i hi]

/-- Whoever is not notified at the last look is abandoned. -/
theorem abandoned_poll_finished (split : List.range n = passed ++ w.remaining)
    (done : ∀ i ∈ passed, notified i = true) (fresh : w.abandoned = [])
    (finished : (w.poll notified now).finished = true) :
    (w.poll notified now).abandoned = (List.range n).filter fun i => !notified i := by
  rw [filter_missing split done]
  cases h : expired w.deadline now with
  | true => rw [(finished_poll_expired h).2, fresh, List.nil_append]
  | false =>
    rw [(finished_poll_early h).2, fresh]
    rw [(finished_poll_early h).1, List.all_eq_true] at finished
    exact (List.filter_eq_nil_iff.mpr fun i hi => by simp [finished i hi]).symm

theorem remaining_poll_finished (finished : (w.poll notified now).finished = true) :
    (w.poll notified now).remaining = [] :=
  List.isEmpty_iff.mp finished

/-- A look that does not end the wait passes handles that are notified, up to one that is not. -/
theorem remaining_poll_unfinished (unfinished : (w.poll notified now).finished = false) :
    ∃ more i rest, w.remaining = more ++ i :: rest ∧ (w.poll notified now).remaining = i :: rest ∧
      (∀ j ∈ more, notified j = true) ∧ notified i = false := by
  have early : expired w.deadline now = false := by
    rw [finished_poll, Bool.or_eq_false_iff] at unfinished
    exact unfinished.1
  have remaining : (w.poll notified now).remaining = w.remaining.dropWhile notified := by
    simp only [poll, early, pass_early]
  cases h : w.remaining.dropWhile notified with
  | nil => simp [finished, remaining, h] at unfinished
  | cons i rest =>
    refine ⟨w.remaining.takeWhile notified, i, rest, ?_, remaining.trans h, ?_, ?_⟩
    · rw [← h, List.takeWhile_append_dropWhile]
    · exact fun j hj => List.all_eq_true.mp List.all_takeWhile j hj
    · have head := List.head?_dropWhile_not notified w.remaining
      rw [h] at head
      simpa using head

theorem pass_pass (notified : Nat → Bool) (timeUp : Bool) (remaining abandoned : List Nat) :
    pass notified timeUp (pass notified timeUp remaining abandoned).1
        (pass notified timeUp remaining abandoned).2 =
      pass notified timeUp remaining abandoned := by
  induction remaining generalizing abandoned with
  | nil => rfl
  | cons h rest ih =>
    cases hn : notified h with
    | true => simpa [pass, hn] using ih abandoned
    | false =>
      cases timeUp with
      | true => simpa [pass, hn] using ih (abandoned ++ [h])
      | false => simp [pass, hn]

/-- A second look at the same time passes nobody. -/
theorem poll_poll (notified : Nat → Bool) (now : Nat) (w : Waiter) :
    (w.poll notified now).poll notified now = w.poll notified now := by
  simp only [poll, pass_pass]

end Waiter

/-! ## What a wait reports -/

/-- What is reported of events: all but the details. -/
def reported (es : List Log.Event) : List Log.Event := es.filter fun e => e.level != .debug

theorem reported_append (es fs : List Log.Event) :
    reported (es ++ fs) = reported es ++ reported fs :=
  List.filter_append ..

theorem reported_signalling (hs : List Handle) : reported (hs.map signallingEvent) = [] := by
  simp [reported, signallingEvent, debugEvent]

theorem reported_passedEvents (c : Coordinator) (abandoned : List Nat) (i : Nat) :
    reported (passedEvents c abandoned i) =
      if abandoned.contains i then [abandonedEvent c i] else [] := by
  unfold passedEvents
  split
  · rfl
  · rfl

theorem reported_passed (c : Coordinator) (abandoned passed : List Nat) :
    reported (passed.flatMap (passedEvents c abandoned)) =
      (passed.filter abandoned.contains).map (abandonedEvent c) := by
  induction passed with
  | nil => rfl
  | cons i passed ih =>
    rw [List.flatMap_cons, reported_append, ih, reported_passedEvents, List.filter_cons]
    split
    · rfl
    · rfl

theorem reported_waitEvents (c : Coordinator) (total : Nat) (before after : Waiter) :
    reported (waitEvents c total before after) =
      ((before.remaining.take (before.remaining.length - after.remaining.length)).filter
        after.abandoned.contains).map (abandonedEvent c) ++
        if after.finished then [finishedEvent total after.abandoned.length] else [] := by
  rw [waitEvents, reported_append, reported_passed]
  congr 1
  split
  · rfl
  · rfl

section
variable {notified : Nat → Bool} {now n : Nat} {w : Waiter} {passed : List Nat}

theorem reported_waitEvents_unfinished (c : Coordinator) (total : Nat) (fresh : w.abandoned = [])
    (unfinished : (w.poll notified now).finished = false) :
    reported (waitEvents c total w (w.poll notified now)) = [] := by
  rw [reported_waitEvents, unfinished, Waiter.abandoned_poll_unfinished unfinished, fresh]
  simp

theorem reported_waitEvents_finished (c : Coordinator) (total : Nat)
    (split : List.range n = passed ++ w.remaining) (done : ∀ i ∈ passed, notified i = true)
    (fresh : w.abandoned = []) (finished : (w.poll notified now).finished = true) :
    reported (waitEvents c total w (w.poll notified now)) =
      (w.poll notified now).abandoned.map (abandonedEvent c) ++
        [finishedEvent total (w.poll notified now).abandoned.length] := by
  have abandoned := Waiter.abandoned_poll_finished split done fresh finished
  have among : w.remaining.filter (w.poll notified now).abandoned.contains =
      (w.poll notified now).abandoned := by
    rw [abandoned, Waiter.filter_missing split done]
    refine List.filter_congr fun i hi => ?_
    simp [hi]
  rw [reported_waitEvents, Waiter.remaining_poll_finished finished, finished]
  simp [among]

end
end MailDispatch.Shutdown
