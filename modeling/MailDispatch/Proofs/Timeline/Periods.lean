import MailDispatch.Proofs.Timeline.OnSchedule
import MailDispatch.Settings.Basic

/-! # From the period of a job to its end

A job whose first execution the clock can show never ends but by returning: when its handle is
signalled and what it was executing then is over. A request for shutdown gives up on a handle only
after its deadline, so it never gives up on a job that is over before. Settings accept longer
periods than the clock can show, though, and a job with such a period crashes as it begins.
-/
namespace MailDispatch

theorem Settings.totalNanos_cleanupPeriod (s : Settings) :
    s.cleanupPeriod.totalNanos = s.cleanupPeriodSeconds * 1000000000 :=
  Nat.add_zero _

theorem Settings.cleanupPeriod_pos {s : Settings} (accepted : s.check = .ok s) :
    0 < s.cleanupPeriod.totalNanos := by
  have nonzero : s.cleanupPeriodSeconds ≠ 0 := by
    intro hzero
    rw [Settings.check, if_pos hzero] at accepted
    cases accepted
  rw [totalNanos_cleanupPeriod]
  omega

namespace Shutdown.Waiter

/-- Only after the deadline is a handle abandoned, and only if it is not notified. -/
theorem mem_abandoned_poll {notified : Nat → Bool} {now i : Nat} {w : Waiter}
    (h : i ∈ (w.poll notified now).abandoned) :
    i ∈ w.abandoned ∨ notified i = false ∧ ∃ d, w.deadline = some d ∧ d ≤ now := by
  unfold poll at h
  cases hexpired : expired w.deadline now with
  | false =>
    rw [hexpired, pass_early] at h
    exact .inl h
  | true =>
    rw [hexpired, pass_expired] at h
    refine (List.mem_append.mp h).imp_right fun hmem => ⟨?_, ?_⟩
    · simpa using (List.mem_filter.mp hmem).2
    · cases hdeadline : w.deadline with
      | none =>
        rw [hdeadline] at hexpired
        cases hexpired
      | some d =>
        rw [hdeadline] at hexpired
        exact ⟨d, rfl, of_decide_eq_true hexpired⟩

end Shutdown.Waiter

namespace Timeline
open Shutdown Cleanup

variable {σ : Type} {tl : Timeline σ} {handle limit : Nat}

/-! ## Whom requests for shutdown give up on -/

theorem deadline_pollCanceller (tl : Timeline σ) (c : Canceller) :
    (tl.pollCanceller c).1.waiter.deadline = c.waiter.deadline := by
  cases h : c.finishedAt with
  | some τ => rw [pollCanceller_finished h]
  | none =>
    rw [pollCanceller_waiting h]
    rfl

theorem mem_abandoned_pollCanceller {c : Canceller}
    (h : handle ∈ (tl.pollCanceller c).1.waiter.abandoned) :
    handle ∈ c.waiter.abandoned ∨
      tl.coordinator.isNotified handle = false ∧ ∃ d, c.waiter.deadline = some d ∧ d ≤ tl.now := by
  cases hfinished : c.finishedAt with
  | some τ =>
    rw [pollCanceller_finished hfinished] at h
    exact .inl h
  | none =>
    rw [pollCanceller_waiting hfinished] at h
    exact Waiter.mem_abandoned_poll h

theorem mem_pollCancellers {cs : List Canceller} {c : Canceller}
    (h : c ∈ (tl.pollCancellers cs).1) : ∃ b ∈ cs, c = (tl.pollCanceller b).1 := by
  induction cs generalizing tl with
  | nil => cases h
  | cons b cs ih =>
    obtain rfl | h := List.mem_cons.mp h
    · exact ⟨b, List.mem_cons_self, rfl⟩
    · obtain ⟨a, ha, hc⟩ := ih h
      have hnow : (tl.pollCanceller b).2.now = tl.now := by
        rw [timeline_pollCanceller, now_logAll]
      have hcoordinator : (tl.pollCanceller b).2.coordinator = tl.coordinator := by
        rw [timeline_pollCanceller, coordinator_logAll]
      exact ⟨a, List.mem_cons_of_mem b ha, hc.trans (pollCanceller_congr hnow hcoordinator a)⟩

/-- No request for shutdown has given up on a handle, and none does so before a time. -/
structure Spares (handle limit : Nat) (tl : Timeline σ) : Prop where
  waiting : ∀ c ∈ tl.cancellers, handle ∉ c.waiter.abandoned
  ample : ∀ c ∈ tl.cancellers, ∀ d, c.waiter.deadline = some d → limit ≤ d

/-- Nobody has requested shutdown yet. -/
structure Unrequested (handle : Nat) (tl : Timeline σ) : Prop where
  registered : handle < tl.coordinator.handles.length
  cancelled : tl.coordinator.cancelled = false
  unsignalled : tl.coordinator.isSignalled handle = false
  nobody : tl.cancellers = []

/-- A request with time left to its deadline gives up on nobody at once. -/
theorem Unrequested.spares_requested (h : Unrequested handle tl)
    (ample : ∀ d, tl.deadline = some d → tl.now < d ∧ limit ≤ d) :
    Spares handle limit tl.requested := by
  obtain ⟨coordinator, hsignal⟩ : ∃ c, tl.coordinator.signal? = some c := by
    simp [Coordinator.signal?, h.cancelled]
  let signalling := { tl with coordinator }.logAll (coordinator.handles.map signallingEvent)
  let canceller : Canceller :=
    { waiter := .start coordinator tl.now, total := coordinator.handles.length }
  have hbegun : tl.beginCancel = signalling.pollCanceller canceller := by
    rw [beginCancel, hsignal]
    simp only [now_logAll, signalling, canceller]
  have hnow : signalling.now = tl.now := now_logAll _ _
  have hdeadline : canceller.waiter.deadline = tl.deadline :=
    congrArg (later? tl.now) (Coordinator.timeout_of_signal? hsignal)
  have honly : tl.requested.cancellers = [(signalling.pollCanceller canceller).1] := by
    unfold requested
    rw [hbegun, timeline_pollCanceller, cancellers_logAll, cancellers_logAll]
    exact congrArg (· ++ _) h.nobody
  constructor
  · intro c hc hmem
    rw [honly, List.mem_singleton] at hc
    rw [hc] at hmem
    rcases mem_abandoned_pollCanceller hmem with hbefore | ⟨-, d, hd, hpast⟩
    · cases hbefore
    · have hlater := (ample d (hdeadline.symm.trans hd)).1
      omega
  · intro c hc d hd
    rw [honly, List.mem_singleton] at hc
    rw [hc, deadline_pollCanceller, hdeadline] at hd
    exact (ample d hd).2

namespace Runner

variable {w v : Runner σ} {number : Nat}

/-- Whoever looks at a handle looks at it when its job is at rest. So if it is notified then from a
time on, nobody gives up on it whose deadline is no earlier. -/
theorem keeps_spares
    (released : ∀ v, Runs w v → v.AtRest → limit ≤ v.timeline.now →
      v.timeline.coordinator.isNotified w.handle = true) :
    Keeps number (Spares w.handle limit) w where
  settle {v} run listed spares := by
    obtain ⟨u, hrounds, -, hrest, -, htimeline⟩ := exists_rounds listed
    have hcancellers : u.timeline.cancellers = v.timeline.cancellers := by
      rw [htimeline]
      exact (Acts.runProcesses _ _).cancellers_eq
    have hsettled : v.timeline.settle.cancellers =
        (u.timeline.pollCancellers v.timeline.cancellers).1 := by
      rw [← hcancellers, htimeline]
      rfl
    constructor
    · intro c hc hmem
      rw [hsettled] at hc
      obtain ⟨b, hb, rfl⟩ := mem_pollCancellers hc
      rcases mem_abandoned_pollCanceller hmem with hbefore | ⟨hmissing, d, hd, hpast⟩
      · exact spares.waiting b hb hbefore
      · have hover : limit ≤ u.timeline.now := Nat.le_trans (spares.ample b hb d hd) hpast
        rw [released u (run.trans hrounds) hrest hover] at hmissing
        cases hmissing
    · intro c hc d hd
      rw [hsettled] at hc
      obtain ⟨b, hb, rfl⟩ := mem_pollCancellers hc
      rw [deadline_pollCanceller] at hd
      exact spares.ample b hb d hd
  wait _ spares := ⟨spares.waiting, spares.ample⟩

/-- A process is a job that has ended in a way. -/
def Ended (number handle : Nat) (exit : Exit) (tl : Timeline σ) : Prop :=
  ∃ j : Job, ⟨number, handle, .job j⟩ ∈ tl.processes ∧ j.phase = .stopped ∧ j.exit = some exit

theorem ended_spawn (tl : Timeline σ) (handle : Nat) {j : Job} {exit : Exit}
    (phase : j.phase = .stopped) (ended : j.exit = some exit) :
    Ended (tl.spawn handle (.job j)).1 handle exit (tl.spawn handle (.job j)).2 := by
  obtain ⟨front, back, hprocesses⟩ :=
    exists_mem_insertProcess ⟨tl.nextNumber, handle, .job j⟩ tl.processes
  refine ⟨j, ?_, phase, ended⟩
  change _ ∈ insertProcess _ _
  rw [hprocesses]
  exact List.mem_append_right _ List.mem_cons_self

theorem Listed.ended (h : Listed number w) {exit : Exit} (phase : w.job.phase = .stopped)
    (ended : w.job.exit = some exit) : Ended number w.handle exit w.timeline := by
  obtain ⟨front, back, hprocesses⟩ := h.among
  refine ⟨w.job, ?_, phase, ended⟩
  rw [hprocesses]
  exact List.mem_append_right _ List.mem_cons_self

/-! ## When a job is over -/

section
variable {started : Timeline σ} {c : Nat} {name : String} {period : Time.Span} {chore : Chore}
  (positive : 0 < period.totalNanos) (representable : (later? tl.now period).isSome = true)
  (begun : tl.startJob handle name period chore = (number, started))
include positive representable begun

theorem Becomes.exit_eq (h : Becomes tl started handle name period chore w) :
    w.job.exit = none ∨ w.job.exit = some .returned := by
  obtain ⟨-, hphase⟩ := h.inPhase positive representable begun
  cases hphase with
  | idle n h => exact .inl h.exit
  | busy n h => exact .inl h.exit
  | stopped n h => exact .inr h.exit

theorem Becomes.isSignalled_eq (h : Becomes tl started handle name period chore w) :
    w.timeline.coordinator.isSignalled handle = w.signalledAt.isSome := by
  obtain ⟨hkept, -⟩ := h.inPhase positive representable begun
  rw [← hkept.signalled, Runs.handle_eq h]
  rfl

/-- After the signal, and after what was in progress then, a job has returned. -/
theorem Becomes.returned (h : Becomes tl started handle name period chore w)
    (signalled : w.signalledAt = some c) (run : Runs w v) (rest : v.AtRest)
    (past : max c ((⟨tl.now, period.totalNanos, chore.work⟩ : Rota).free w.job.runs.length) ≤ v.timeline.now) :
    v.job.exit = some .returned ∧ v.timeline.coordinator.isNotified handle = true := by
  obtain ⟨n, hplan⟩ := Becomes.onSchedule positive representable begun (h.trans run)
  have hsignal : w.timeline.coordinator.isSignalled w.handle = true := by
    rw [Runs.handle_eq h,
      show (startOf tl started handle name period chore).handle = handle from rfl,
      h.isSignalled_eq positive representable begun, signalled]
    rfl
  have hlength : v.job.runs.length = w.job.runs.length :=
    (run.length_runs_of_signalled hsignal).1
  have hn : w.job.runs.length = n := hlength.symm.trans hplan.length
  rw [hn] at past
  have hexit := hplan.returns rest c (run.signalledAt_of signalled) past
  obtain ⟨-, hnotified, -⟩ := hplan.returned hexit
  rw [Runs.handle_eq (h.trans run)] at hnotified
  exact ⟨hexit, hnotified⟩

theorem Becomes.quiet (h : Becomes tl started handle name period chore w)
    (unrequested : Unrequested handle w.timeline) : w.signalledAt = none := by
  have hsignalled := h.isSignalled_eq positive representable begun
  rw [unrequested.unsignalled] at hsignalled
  exact Option.not_isSome_iff_eq_none.mp (Bool.eq_false_iff.mp hsignalled.symm)

/-- The first request for shutdown signals the job at once. -/
theorem Becomes.exists_requested (h : Becomes tl started handle name period chore w)
    (listed : Listed number w) (unrequested : Unrequested handle w.timeline) :
    ∃ v, Becomes tl started handle name period chore v ∧ Listed number v ∧
      v.timeline = w.timeline.requested ∧ v.timeline.now = w.timeline.now ∧
      v.signalledAt = some w.timeline.now ∧ v.job.runs.length = w.job.runs.length := by
  obtain ⟨hacts, hlisted⟩ := listed.requested
  have hhandle : w.handle = handle := Runs.handle_eq h
  have hsignal := signalledAt_requested (w := w) unrequested.cancelled
    (hhandle.symm ▸ unrequested.registered)
  rw [h.quiet positive representable begun unrequested, Option.none_or] at hsignal
  exact ⟨_, h.tail hacts, hlisted, rfl, (beginCancel_same w.timeline).1, hsignal, rfl⟩

theorem Becomes.ended_of_request (h : Becomes tl started handle name period chore w)
    (listed : Listed number w) (unrequested : Unrequested handle w.timeline) (span : Nat)
    (past : (⟨tl.now, period.totalNanos, chore.work⟩ : Rota).free w.job.runs.length ≤ w.timeline.now + span) :
    let tl' := w.timeline.cancelInBackground.sleep span
    Ended number handle .returned tl' ∧ tl'.coordinator.isNotified handle = true := by
  obtain ⟨u, hrequested, hlisted, htimeline, hnow, hsignal, hlength⟩ :=
    h.exists_requested positive representable begun listed unrequested
  obtain ⟨x, hsettles, hquiet, -, hstill, hsettled⟩ := exists_settle hlisted
  obtain ⟨v, hsleeps, hlast, hrest, hslept, hend⟩ := exists_sleep span hquiet
  have hruns := hsettles.trans hsleeps
  have hpast : max w.timeline.now ((⟨tl.now, period.totalNanos, chore.work⟩ : Rota).free u.job.runs.length) ≤
      v.timeline.now := by
    rw [hend, hstill, hnow, hlength]
    exact Nat.max_le.mpr ⟨Nat.le_add_right _ _, past⟩
  obtain ⟨hexit, hnotified⟩ :=
    hrequested.returned positive representable begun hsignal hruns hrest hpast
  have hslept' : v.timeline = w.timeline.cancelInBackground.sleep span := by
    rw [hslept, hsettled, htimeline]
    rfl
  obtain ⟨-, hphase⟩ := Becomes.inPhase positive representable begun (hrequested.trans hruns)
  have hhandle : v.handle = handle := Runs.handle_eq (hrequested.trans hruns)
  rw [← hslept']
  refine ⟨?_, hnotified⟩
  rw [← hhandle]
  refine hlast.ended ?_ hexit
  cases hphase with
  | idle n h => rw [h.exit] at hexit; cases hexit
  | busy n h => rw [h.exit] at hexit; cases hexit
  | stopped n h => exact h.phase

theorem Becomes.spared_of_request (h : Becomes tl started handle name period chore w)
    (listed : Listed number w) (unrequested : Unrequested handle w.timeline)
    (ample : ∀ d, w.timeline.deadline = some d →
      max w.timeline.now ((⟨tl.now, period.totalNanos, chore.work⟩ : Rota).free w.job.runs.length) < d)
    (until_ : Timeline σ → Bool) (span : Nat) :
    ∀ c ∈ (w.timeline.cancelInBackground.waitUntil until_ span).cancellers,
      handle ∉ c.waiter.abandoned := by
  obtain ⟨u, hrequested, hlisted, htimeline, hnow, hsignal, hlength⟩ :=
    h.exists_requested positive representable begun listed unrequested
  let limit := max w.timeline.now ((⟨tl.now, period.totalNanos, chore.work⟩ : Rota).free u.job.runs.length)
  have hhandle : u.handle = handle := Runs.handle_eq hrequested
  have hspares : Spares u.handle limit u.timeline := by
    rw [htimeline, hhandle]
    refine unrequested.spares_requested fun d hd => ?_
    have hlater := ample d hd
    rw [← hlength] at hlater
    exact ⟨Nat.lt_of_le_of_lt (Nat.le_max_left _ _) hlater, Nat.le_of_lt hlater⟩
  have hkeeps : Keeps number (Spares u.handle limit) u := by
    refine keeps_spares fun v run rest past => ?_
    rw [hhandle]
    exact (hrequested.returned positive representable begun hsignal run rest past).2
  obtain ⟨x, hsettles, hquiet, -, -, hsettled⟩ := exists_settle hlisted
  have hcalm : Spares u.handle limit x.timeline :=
    hsettled ▸ hkeeps.settle .refl hlisted hspares
  obtain ⟨v, -, -, hwaited, -, hspared⟩ :=
    exists_waitUntil until_ span hquiet (hkeeps.of_runs hsettles) hcalm
  rw [hwaited, hsettled, htimeline, hhandle] at hspared
  exact hspared.waiting

end

/-! ## Accepted periods -/

/-- A job that is refused returns at once. -/
theorem startJob_zero (tl : Timeline σ) (registered : handle < tl.coordinator.handles.length)
    (name : String) (chore : Chore) :
    let zero := tl.startJob handle name (.ofSeconds 0) chore
    Ended zero.1 handle .returned zero.2 ∧ zero.2.now = tl.now ∧
      zero.2.coordinator.isNotified handle = true := by
  intro zero
  let refused := (tl.log (refusedEvent name)).notify handle
  let job : Job :=
    { name, period := (Time.Span.ofSeconds 0).totalNanos, chore, phase := .stopped
      exit := some .returned }
  have hzero : zero = refused.spawn handle (.job job) := rfl
  rw [hzero]
  refine ⟨ended_spawn refused handle rfl rfl, now_notify handle _, ?_⟩
  change refused.coordinator.isNotified handle = true
  have hregistered : handle < (tl.log (refusedEvent name)).coordinator.handles.length := registered
  rw [coordinator_notify, Coordinator.isNotified_notify]
  simp [hregistered]

/-- A job whose first execution is later than any time of the clock crashes at once, and nobody
else notifies its handle. -/
theorem startJob_overflow {period : Time.Span} (positive : period.isZero = false)
    (overflow : later? tl.now period = none) (handle : Nat) (name : String) (chore : Chore) :
    let started := tl.startJob handle name period chore
    Ended started.1 handle (.crashed (.text "overflow when adding duration to instant"))
        started.2 ∧
      started.2.now = tl.now ∧ started.2.coordinator = tl.coordinator := by
  intro started
  have hbegin : Cleanup.begin tl.now period =
      .crashed (.text "overflow when adding duration to instant") := by
    rw [Cleanup.begin, positive, overflow]
    rfl
  have hstarted : started = (tl.log (startingEvent name period)).spawn handle
      (.job { name, period := period.totalNanos, chore, phase := .stopped
              exit := some (.crashed (.text "overflow when adding duration to instant")) }) := by
    unfold started startJob
    rw [hbegin]
  rw [hstarted]
  exact ⟨ended_spawn _ handle rfl rfl, rfl, rfl⟩

/-- Every accepted period gives a job that never crashes and that a shutdown finds over in time, as
long as the clock can show the time of the first execution. Where it cannot, the job crashes before
anything else, and its handle is left without notice. -/
theorem accepted_periods_shut_down_or_overflow {s : Settings} (accepted : s.check = .ok s)
    (tl : Timeline σ) (handle : Nat) (registered : handle < tl.coordinator.handles.length)
    (name : String) (chore : Chore) :
    (let zero := tl.startJob handle name (.ofSeconds 0) chore
     Ended zero.1 handle .returned zero.2 ∧ zero.2.now = tl.now ∧
       zero.2.coordinator.isNotified handle = true) ∧
    ∀ number started, tl.startJob handle name s.cleanupPeriod chore = (number, started) →
      (later? tl.now s.cleanupPeriod = none →
        Ended number handle (.crashed (.text "overflow when adding duration to instant")) started ∧
          started.now = tl.now ∧ started.coordinator = tl.coordinator) ∧
      ((later? tl.now s.cleanupPeriod).isSome = true →
        let p := s.cleanupPeriodSeconds * 1000000000
        let r : Rota := ⟨tl.now, p, chore.work⟩
        Listed number (begin handle (.fresh name p (tl.now + p) chore) started) ∧
        ∀ w : Runner σ, Runs (begin handle (.fresh name p (tl.now + p) chore) started) w →
          let ending := r.free w.job.runs.length
          (w.job.exit = none ∨ w.job.exit = some .returned) ∧
          (Listed number w → Driven number w) ∧
          (∀ c, w.signalledAt = some c → w.AtRest → max c ending ≤ w.timeline.now →
            w.job.exit = some .returned ∧ w.timeline.coordinator.isNotified handle = true) ∧
          (Listed number w → Unrequested handle w.timeline →
            (∀ span, ending ≤ w.timeline.now + span →
              let tl' := w.timeline.cancelInBackground.sleep span
              Ended number handle .returned tl' ∧ tl'.coordinator.isNotified handle = true) ∧
            ((∀ d, w.timeline.deadline = some d → max w.timeline.now ending < d) →
              ∀ until_ span, ∀ c ∈ (w.timeline.cancelInBackground.waitUntil until_ span).cancellers,
                handle ∉ c.waiter.abandoned))) := by
  have hpositive := Settings.cleanupPeriod_pos accepted
  refine ⟨startJob_zero tl registered name chore, fun number started begun => ⟨?_, ?_⟩⟩
  · intro overflow
    have hcrash := startJob_overflow (Time.Span.isZero_eq_false_iff.mpr hpositive) overflow handle
      name chore
    rwa [begun] at hcrash
  · intro representable
    rw [← s.totalNanos_cleanupPeriod]
    intro p r
    refine ⟨(listed_startOf hpositive representable begun).2, fun w h => ?_⟩
    have hbecomes : Becomes tl started handle name s.cleanupPeriod chore w := h
    refine ⟨hbecomes.exit_eq hpositive representable begun, Listed.driven, ?_, ?_⟩
    · exact fun c signalled rest past =>
        hbecomes.returned hpositive representable begun signalled .refl rest past
    · intro listed unrequested
      exact ⟨hbecomes.ended_of_request hpositive representable begun listed unrequested,
        hbecomes.spared_of_request hpositive representable begun listed unrequested⟩

/-- One handle is registered, and a shutdown waits a second for it. -/
def single : Timeline Rehearsal where
  now := 0
  coordinator := ⟨.ofSeconds 1, false, [{ name := "job" }]⟩
  backend := Rehearsal.backend
  state := {}
  wallClock := .latest
  operationId := "a"

theorem Listed.job?_eq (h : Listed number w) (only : w.timeline.processes.length = 1) :
    w.timeline.job? number = some w.job := by
  obtain ⟨front, back, hamong⟩ := h.among
  rw [hamong, List.length_append, List.length_cons] at only
  obtain rfl : front = [] := List.length_eq_zero_iff.mp (by omega)
  rw [job?, activity?, hamong]
  simp

/-- Executions take half a second, and shutdown is requested while the first one is in progress. -/
theorem execution_in_progress_is_over_in_time :
    let s : Settings := { cleanupPeriodSeconds := 2 }
    let chore : Chore := .script [⟨500000000, .success⟩]
    let started := (single.startJob 0 "job" s.cleanupPeriod chore).2
    let busy := started.sleep 2100000000
    (busy.job? 0).map Job.runs = some [⟨2000000000, none⟩] ∧
    Ended 0 0 .returned (busy.cancelInBackground.sleep 400000000) ∧
    ∀ c ∈ (busy.cancelInBackground.waitUntil (fun _ => false) 5000000000).cancellers,
      0 ∉ c.waiter.abandoned := by
  intro s chore started busy
  obtain ⟨-, hjobs⟩ := accepted_periods_shut_down_or_overflow (s := s) rfl single 0 (by decide)
    "job" chore
  have hbegun : single.startJob 0 "job" s.cleanupPeriod chore = (0, started) :=
    Prod.ext (by decide +kernel) rfl
  have hrepresentable : (later? single.now s.cleanupPeriod).isSome = true := by decide +kernel
  obtain ⟨hlisted, hruns⟩ := (hjobs 0 started hbegun).2 hrepresentable
  obtain ⟨-, hdriven, -⟩ := hruns _ .refl
  obtain ⟨w, hrun, hlast, -, hslept, -⟩ := (hdriven hlisted).sleep 2100000000
  have hbusy : w.timeline = busy := hslept
  have hstands : (busy.job? 0).map Job.runs = some [⟨2000000000, none⟩] ∧
      busy.processes.length = 1 ∧ busy.now = 2100000000 ∧ busy.deadline = some 3100000000 ∧
      busy.coordinator.cancelled = false ∧ busy.coordinator.isSignalled 0 = false ∧
      busy.coordinator.handles.length = 1 ∧ busy.cancellers.length = 0 := by decide +kernel
  obtain ⟨hexecutes, honly, hnow, hdeadline, hcancelled, hquiet, hknown, hnobody⟩ := hstands
  have hlength : w.job.runs = [⟨2000000000, none⟩] := by
    have hjob := hlast.job?_eq (hbusy ▸ honly)
    rw [hbusy] at hjob
    rw [hjob] at hexecutes
    exact Option.some.inj hexecutes
  have hending : (⟨single.now, s.cleanupPeriodSeconds * 1000000000, chore.work⟩ : Rota).free
      w.job.runs.length = 2500000000 := by
    rw [hlength]
    decide +kernel
  have hunrequested : Unrequested 0 w.timeline := by
    rw [hbusy]
    exact ⟨by rw [hknown]; decide, hcancelled, hquiet, List.length_eq_zero_iff.mp hnobody⟩
  obtain ⟨-, -, -, hends⟩ := hruns w hrun
  obtain ⟨hover, hspared⟩ := hends hlast hunrequested
  rw [hbusy, hnow, hending] at hover hspared
  refine ⟨hexecutes, (hover 400000000 (by decide)).1, hspared ?_ _ _⟩
  intro d hd
  obtain rfl : 3100000000 = d := Option.some.inj (hdeadline.symm.trans hd)
  decide

/-- The longest period that can be set is accepted. The job crashes all the same, does not notify
its handle, and is given up on. -/
theorem longest_period_crashes_and_is_abandoned :
    let s : Settings := { cleanupPeriodSeconds := 18446744073709551615 }
    let started := (single.startJob 0 "job" s.cleanupPeriod (.script [])).2
    let requested := started.cancelInBackground.sleep 1000000000
    s.check = .ok s ∧
    ((started.job? 0).bind Job.exit =
      some (.crashed (.text "overflow when adding duration to instant"))) ∧
    ((requested.job? 0).bind Job.exit ≠ some .returned) ∧
    requested.coordinator.isSignalled 0 = true ∧ requested.coordinator.isNotified 0 = false ∧
    requested.cancellers.map (fun c => c.waiter.abandoned) = [[0]] := by
  intro s started requested
  have haccepted : s.check = .ok s := rfl
  have hcrashed : (started.job? 0).bind Job.exit =
      some (.crashed (.text "overflow when adding duration to instant")) := by decide +kernel
  refine ⟨haccepted, hcrashed, ?_⟩
  decide +kernel

end Runner
end Timeline
end MailDispatch
