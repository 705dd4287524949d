import MailDispatch.Proofs.Timeline.Driving

/-! # Commands

Whatever is done with a timeline from outside, to let time pass, to start and stop activities or
to wait for them, makes a run of each job on it. So what holds in all runs of a job holds however
its timeline is used.
-/
namespace MailDispatch.Timeline
open Shutdown Cleanup

variable {σ : Type}

theorem beginCancel_same (tl : Timeline σ) :
    tl.beginCancel.2.now = tl.now ∧ tl.beginCancel.2.processes = tl.processes ∧
      ∀ i, (tl.coordinator.isSignalled i = true → tl.beginCancel.2.coordinator.isSignalled i = true) ∧
        tl.beginCancel.2.coordinator.isNotified i = tl.coordinator.isNotified i := by
  unfold beginCancel
  split
  · exact ⟨rfl, rfl, fun i => ⟨id, rfl⟩⟩
  · next coordinator requested =>
    simp only [timeline_pollCanceller, now_logAll, processes_logAll, coordinator_logAll]
    refine ⟨trivial, trivial, fun i => ⟨fun h => ?_, Coordinator.isNotified_of_signal? requested i⟩⟩
    rw [Coordinator.isSignalled_of_signal? requested]
    exact decide_eq_true (Coordinator.lt_of_isSignalled h)

theorem isSignalled_beginCancel {tl : Timeline σ} (first : tl.coordinator.cancelled = false) {i : Nat}
    (registered : i < tl.coordinator.handles.length) :
    tl.beginCancel.2.coordinator.isSignalled i = true := by
  obtain ⟨coordinator, requested⟩ : ∃ c, tl.coordinator.signal? = some c := by
    simp [Coordinator.signal?, first]
  unfold beginCancel
  rw [requested]
  simp only [timeline_pollCanceller, coordinator_logAll]
  rw [Coordinator.isSignalled_of_signal? requested]
  exact decide_eq_true registered

/-- What a request for shutdown makes of a timeline at once. -/
def requested (tl : Timeline σ) : Timeline σ :=
  { tl.beginCancel.2 with cancellers := tl.beginCancel.2.cancellers ++ [tl.beginCancel.1] }

theorem exists_insertProcess (p q : Process) (front back : List Process) :
    ∃ front' back', insertProcess p (front ++ q :: back) = front' ++ q :: back' := by
  induction front with
  | nil =>
    rw [List.nil_append, insertProcess]
    split
    · exact ⟨[], _, rfl⟩
    · exact ⟨[p], back, rfl⟩
  | cons r front ih =>
    rw [List.cons_append, insertProcess]
    split
    · obtain ⟨front', back', h⟩ := ih
      exact ⟨r :: front', back', congrArg (r :: ·) h⟩
    · exact ⟨p :: r :: front, back, rfl⟩

/-- What is done with a timeline from outside. -/
inductive Command (σ : Type) where
  | settle
  | wait (until_ : Timeline σ → Bool) (span : Nat)
  | sleep (span : Nat)
  | cancel
  | cancelInBackground
  | joinCancels
  | newHandle (name : String)
  | notify (handle : Nat)
  | spawn (handle : Nat) (a : Activity)
  | startJob (handle : Nat) (name : String) (period : Time.Span) (chore : Chore)

def Command.run (tl : Timeline σ) : Command σ → Timeline σ
  | .settle => tl.settle
  | .wait until_ span => tl.waitUntil until_ span
  | .sleep span => tl.sleep span
  | .cancel => tl.cancel.2
  | .cancelInBackground => tl.cancelInBackground
  | .joinCancels => tl.joinCancels.2
  | .newHandle name =>
    match tl.newHandle name with
    | .ok (_, tl) => tl
    | .error _ => tl
  | .notify handle => tl.notify handle
  | .spawn handle a => (tl.spawn handle a).2
  | .startJob handle name period chore => (tl.startJob handle name period chore).2

namespace Runner

variable {w : Runner σ} {number : Nat}

/-- The timeline is what has become of that of the runner, and the job is still on it. -/
def Drives (number : Nat) (w : Runner σ) (tl : Timeline σ) : Prop :=
  ∃ v, Runs w v ∧ Listed number v ∧ v.timeline = tl

theorem Drives.trans {tl tl' : Timeline σ} (h : Drives number w tl)
    (next : ∀ v : Runner σ, Listed number v → v.timeline = tl → Drives number v tl') :
    Drives number w tl' := by
  obtain ⟨v, hrun, hlisted, htimeline⟩ := h
  obtain ⟨u, hrest, hlast, hu⟩ := next v hlisted htimeline
  exact ⟨u, hrun.trans hrest, hlast, hu⟩

namespace Listed

/-- Anything may be done that leaves the clock and the processes alone and takes back neither the
signal nor the notice of the job. -/
theorem aside (h : Listed number w) {tl : Timeline σ} (now : tl.now = w.timeline.now)
    (processes : tl.processes = w.timeline.processes)
    (signalled : w.timeline.coordinator.isSignalled w.handle = true →
      tl.coordinator.isSignalled w.handle = true)
    (notified : w.timeline.coordinator.isNotified w.handle = true →
      tl.coordinator.isNotified w.handle = true) : Drives number w tl :=
  ⟨w.act tl, .single (.acts w now signalled notified), ⟨processes ▸ h.among, h.positive⟩, rfl⟩

theorem log (h : Listed number w) (e : Log.Event) : Drives number w (w.timeline.log e) :=
  h.aside rfl rfl id id

theorem withCancellers (h : Listed number w) (cancellers : List Canceller) :
    Drives number w { w.timeline with cancellers } :=
  h.aside rfl rfl id id

theorem notify (h : Listed number w) (handle : Nat) : Drives number w (w.timeline.notify handle) := by
  have hacts := Acts.notify w.timeline handle
  have hprocesses : (w.timeline.notify handle).processes = w.timeline.processes := by
    unfold Timeline.notify
    split
    · rfl
    · rfl
  exact h.aside hacts.now_eq hprocesses (fun hs => (hacts.isSignalled_eq _).trans hs)
    hacts.isNotified_of

theorem spawn (h : Listed number w) (handle : Nat) (a : Activity) :
    Drives number w (w.timeline.spawn handle a).2 := by
  refine ⟨w.act (w.timeline.spawn handle a).2, .single (.acts w rfl id id),
    ⟨?_, h.positive⟩, rfl⟩
  obtain ⟨front, back, hamong⟩ := h.among
  change ∃ front back, insertProcess _ w.timeline.processes = _
  rw [hamong]
  exact exists_insertProcess _ _ front back

theorem startJob (h : Listed number w) (handle : Nat) (name : String) (period : Time.Span)
    (chore : Chore) : Drives number w (w.timeline.startJob handle name period chore).2 := by
  unfold Timeline.startJob
  split
  · refine (h.log (refusedEvent name)).trans fun v hv hlog => ?_
    rw [← hlog]
    refine (hv.notify handle).trans fun u hu hnotify => ?_
    rw [← hnotify]
    exact hu.spawn handle _
  · refine (h.log (startingEvent name period)).trans fun v hv hlog => ?_
    rw [← hlog]
    exact hv.spawn handle _
  · refine (h.log (startingEvent name period)).trans fun v hv hlog => ?_
    rw [← hlog]
    exact hv.spawn handle _

theorem newHandle (h : Listed number w) (name : String) :
    Drives number w (Command.run w.timeline (.newHandle name)) := by
  have hkept : ∀ (handles : List Handle) (f : Handle → Bool) (i : Nat),
      ((handles[i]?).map f).getD false = true →
        (((handles ++ [⟨name, false, false⟩])[i]?).map f).getD false = true := by
    intro handles f i hi
    cases hget : handles[i]? with
    | none =>
      rw [hget] at hi
      cases hi
    | some x =>
      rw [List.getElem?_append_left (List.getElem?_eq_some_iff.mp hget).1]
      exact hi
  unfold Command.run Timeline.newHandle Coordinator.newHandle
  cases w.timeline.coordinator.cancelled with
  | true => exact h.aside rfl rfl id id
  | false => exact h.aside rfl rfl (hkept _ _ _) (hkept _ _ _)

theorem settle (h : Listed number w) : Drives number w w.timeline.settle := by
  obtain ⟨v, hrun, hlisted, -, -, htimeline⟩ := exists_settle h
  exact ⟨v, hrun, hlisted, htimeline⟩

theorem waitUntil (h : Listed number w) (until_ : Timeline σ → Bool) (span : Nat) :
    Drives number w (w.timeline.waitUntil until_ span) := by
  obtain ⟨v, hrun, hlisted, htimeline, -, -⟩ :=
    exists_waitUntil until_ span h (.always number w) trivial
  exact ⟨v, hrun, hlisted, htimeline⟩

theorem requested (h : Listed number w) :
    Step w (w.act w.timeline.requested) ∧ Listed number (w.act w.timeline.requested) := by
  obtain ⟨hnow, hprocesses, hcoordinator⟩ := beginCancel_same w.timeline
  exact ⟨.acts w hnow (hcoordinator _).1 fun hn => (hcoordinator _).2.trans hn,
    ⟨hprocesses ▸ h.among, h.positive⟩⟩

theorem drives_requested (h : Listed number w) : Drives number w w.timeline.requested :=
  ⟨_, .single h.requested.1, h.requested.2, rfl⟩

theorem command (h : Listed number w) (c : Command σ) : Drives number w (c.run w.timeline) := by
  cases c with
  | settle => exact h.settle
  | wait until_ span => exact h.waitUntil until_ span
  | sleep span =>
    obtain ⟨v, hrun, hlisted, -, htimeline, -⟩ := exists_sleep span h
    exact ⟨v, hrun, hlisted, htimeline⟩
  | cancel =>
    refine h.drives_requested.trans fun v hv hbegun => ?_
    have hwaited := hv.waitUntil lastFinished patience
    rw [hbegun] at hwaited
    refine hwaited.trans fun u hu hlast => ?_
    have hdone := hu.withCancellers u.timeline.cancellers.dropLast
    rw [hlast] at hdone
    exact hdone
  | cancelInBackground =>
    refine h.drives_requested.trans fun v hv hbegun => ?_
    have hsettled := hv.settle
    rw [hbegun] at hsettled
    exact hsettled
  | joinCancels =>
    refine (h.waitUntil (fun tl => tl.cancellers.all fun c => c.finishedAt.isSome) patience).trans
      fun u hu hlast => ?_
    have hdone := hu.withCancellers []
    rw [hlast] at hdone
    exact hdone
  | newHandle name => exact h.newHandle name
  | notify handle => exact h.notify handle
  | spawn handle a => exact h.spawn handle a
  | startJob handle name period chore => exact h.startJob handle name period chore

/-- However the timeline is driven, what becomes of it is a run of the job. -/
theorem commands (h : Listed number w) (cs : List (Command σ)) :
    Drives number w (cs.foldl Command.run w.timeline) := by
  induction cs generalizing w with
  | nil => exact ⟨w, .refl, h, rfl⟩
  | cons c cs ih =>
    refine (h.command c).trans fun v hv hfirst => ?_
    rw [List.foldl_cons, ← hfirst]
    exact ih hv

end Listed

/-- A request for shutdown signals the handle of the job, if nothing has before. -/
theorem signalledAt_requested (first : w.timeline.coordinator.cancelled = false)
    (registered : w.handle < w.timeline.coordinator.handles.length) :
    (w.act w.timeline.requested).signalledAt = w.signalledAt.or (some w.timeline.now) := by
  have hsignalled : w.timeline.requested.coordinator.isSignalled w.handle = true :=
    isSignalled_beginCancel first registered
  rw [act, signalTime, if_pos hsignalled]
  exact congrArg (w.signalledAt.or <| some ·) (beginCancel_same w.timeline).1

theorem exists_cancelInBackground (h : Listed number w)
    (first : w.timeline.coordinator.cancelled = false)
    (registered : w.handle < w.timeline.coordinator.handles.length) :
    ∃ v, Runs w v ∧ Listed number v ∧ v.AtRest ∧ v.timeline = w.timeline.cancelInBackground ∧
      v.timeline.now = w.timeline.now ∧
      v.signalledAt = w.signalledAt.or (some w.timeline.now) := by
  obtain ⟨hacts, hlisted⟩ := h.requested
  have hsignal := signalledAt_requested first registered
  obtain ⟨v, hrun, hlast, hrest, hsame, hsettled⟩ := exists_settle hlisted
  refine ⟨v, hrun.head hacts, hlast, hrest, hsettled,
    hsame.trans (beginCancel_same w.timeline).1, ?_⟩
  cases hbefore : w.signalledAt with
  | some c | none =>
    rw [hbefore] at hsignal
    exact hrun.signalledAt_of hsignal

/-- What the commands of a timeline come to for a job. -/
structure Driven (number : Nat) (w : Runner σ) : Prop where
  commands : ∀ cs : List (Command σ), Drives number w (cs.foldl Command.run w.timeline)
  sleep : ∀ span, ∃ v, Runs w v ∧ Listed number v ∧ v.AtRest ∧
    v.timeline = w.timeline.sleep span ∧ v.timeline.now = w.timeline.now + span
  cancel : w.timeline.coordinator.cancelled = false →
    w.handle < w.timeline.coordinator.handles.length →
    ∃ v, Runs w v ∧ Listed number v ∧ v.AtRest ∧ v.timeline = w.timeline.cancelInBackground ∧
      v.timeline.now = w.timeline.now ∧ v.signalledAt = w.signalledAt.or (some w.timeline.now)

theorem Listed.driven (h : Listed number w) : Driven number w where
  commands := h.commands
  sleep span := exists_sleep span h
  cancel := exists_cancelInBackground h

end Runner
end MailDispatch.Timeline
