import MailDispatch.Proofs.Api.Tidiness
import MailDispatch.Proofs.Cleanup.Sweeping
import MailDispatch.Proofs.Timeline.OnSchedule

/-! # The cleanup beside requests

The cleanup is a job at a store that serves requests. Anything may fail in either of them. Each
execution purges all that is stale or nothing, and says which, and the next one starts on time, on a
sound store and with no transaction left open.
-/
namespace MailDispatch.Cleanup
open Store Work Mailing Time Service Timeline Api Shutdown

variable {σ : Type}

/-! ## Turns -/

/-- What happens next at a store with a cleanup: the job goes on, a request arrives, one that waits
to send goes on, something else changes that is not the store, or time passes. -/
inductive Turn (scene : σ → Scene) : Runner σ → Runner σ → Prop where
  | goes (w : Runner σ) {a : Act} {job : Job} {tl : Timeline σ} (next : w.nextAct = some a)
    (polled : w.timeline.pollJob w.handle w.job = some (job, tl)) : Turn scene w (w.go a job tl)
  | arrives (w : Runner σ) (app : App σ) (serves : app.backend = w.timeline.backend) (id : String)
    (r : Http.Request) :
    Turn scene w (w.act { w.timeline with state := (app.arrive id r w.timeline.state).2 })
  | proceeds (w : Runner σ) (app : App σ) (serves : app.backend = w.timeline.backend)
    (waiting : Waiting) :
    Turn scene w (w.act { w.timeline with state := (app.proceed waiting w.timeline.state).2 })
  | changes (w : Runner σ) {tl : Timeline σ} (now : tl.now = w.timeline.now)
    (signalled : w.timeline.coordinator.isSignalled w.handle = true →
      tl.coordinator.isSignalled w.handle = true)
    (notified : w.timeline.coordinator.isNotified w.handle = true →
      tl.coordinator.isNotified w.handle = true)
    (backend : tl.backend = w.timeline.backend)
    (store : scene tl.state = scene w.timeline.state) : Turn scene w (w.act tl)
  | waits (w : Runner σ) {t : Nat} (later : w.timeline.now < t) (rest : w.AtRest)
    (asleep : ∀ d, w.job.phase.nextTime = some d → t ≤ d) : Turn scene w (w.wait t)

variable {b : Backend σ} {scene : σ → Scene} {records : σ → List Log.Record}
  {threshold : Time.Span} {w v : Runner σ}

theorem Turn.step (h : Turn scene w v) : Runner.Step w v := by
  cases h with
  | goes next polled => exact .polls w next polled
  | arrives app serves id r => exact .acts w rfl (fun h => h) fun h => h
  | proceeds app serves waiting => exact .acts w rfl (fun h => h) fun h => h
  | changes now signalled notified backend store => exact .acts w now signalled notified
  | waits later rest asleep => exact .waits w later rest asleep

/-- The job is a cleanup, whose store is sound and has no open transaction. -/
structure Tended (b : Backend σ) (scene : σ → Scene) (name : String) (threshold : Time.Span)
    (w : Runner σ) : Prop where
  backend : w.timeline.backend = b
  name_eq : w.job.name = name
  chore : w.job.chore = .cleanup threshold
  rests : (scene w.timeline.state).Rests Tables.Sound

theorem execute_cleanup (tl : Timeline σ) {j : Job} (h : j.chore = .cleanup threshold) :
    (tl.execute j).2.1 =
        (purgeOnce tl.backend (tl.operationOf j.name) tl.wallClock threshold tl.state).1 ∧
      (tl.execute j).2.2.state =
        (purgeOnce tl.backend (tl.operationOf j.name) tl.wallClock threshold tl.state).2 := by
  unfold Timeline.execute
  rw [h]
  exact ⟨rfl, rfl⟩

section
variable (hb : b.Faithful scene)
include hb

theorem Tended.goes {name : String} (h : Tended b scene name threshold w) {a : Act} {job : Job}
    {tl : Timeline σ} (moves : Moves w.timeline w.handle w.job a job tl) :
    Tended b scene name threshold (w.go a job tl) := by
  have hsteady := (keeping_sound carrier).steady hb
  have hstate : scene tl.state = scene (w.worked a) := by
    rw [Runner.state_of_moves moves, h.backend]
    exact hb.foldl_log _ _
  have hworked : (scene (w.worked a)).Rests Tables.Sound := by
    cases a with
    | start =>
      rw [Runner.worked, (execute_cleanup w.timeline h.chore).2, h.backend]
      exact hsteady.purgeOnce _ _ _ h.rests
    | finish | stop => exact h.rests
  have hrests : (scene tl.state).Rests Tables.Sound := hstate ▸ hworked
  cases moves with
  | start phase quiet past =>
    exact ⟨(congrArg Timeline.backend (execute_eq w.timeline w.job)).trans h.backend, h.name_eq,
      h.chore, hrests⟩
  | finish phase past => exact ⟨h.backend, h.name_eq, h.chore, hrests⟩
  | stop phase signalled =>
    exact ⟨(backend_notify _ _).trans h.backend, h.name_eq, h.chore, hrests⟩

theorem Tended.steady {name : String} (h : Tended b scene name threshold w) {app : App σ}
    (serves : app.backend = w.timeline.backend) :
    Steady app.backend app.emailer fun s => (scene s).Rests Tables.Sound := by
  rw [serves, h.backend]
  exact (keeping_sound app.emailer).steady hb

theorem Tended.turn {name : String} (h : Tended b scene name threshold w)
    (t : Turn scene w v) : Tended b scene name threshold v := by
  cases t with
  | goes next polled => exact h.goes hb (moves_of_pollJob next polled)
  | arrives app serves id r =>
    exact ⟨h.backend, h.name_eq, h.chore, (h.steady hb serves).arrive id r h.rests⟩
  | proceeds app serves waiting =>
    exact ⟨h.backend, h.name_eq, h.chore, (h.steady hb serves).proceed waiting h.rests⟩
  | changes now signalled notified backend store =>
    exact ⟨backend.trans h.backend, h.name_eq, h.chore, store.symm ▸ h.rests⟩
  | waits later rest asleep => exact ⟨h.backend, h.name_eq, h.chore, h.rests⟩

omit hb in
theorem Tended.executes {name : String} (h : Tended b scene name threshold w) {job : Job}
    {tl : Timeline σ} (moves : Moves w.timeline w.handle w.job .start job tl) :
    purgeOnce b (w.timeline.operationOf name) w.timeline.wallClock threshold w.timeline.state =
      (job.pending, tl.state) := by
  cases moves with
  | start phase quiet past =>
    obtain ⟨hresult, hstate⟩ := execute_cleanup w.timeline h.chore
    rw [h.backend, h.name_eq] at hresult hstate
    exact Prod.ext hresult.symm hstate.symm

/-- At the end of an execution its result is reported if it is a failure, and that is all. -/
theorem Tended.reports (hlog : b.Logs records) {name : String}
    (h : Tended b scene name threshold w) {job : Job} {tl : Timeline σ}
    (moves : Moves w.timeline w.handle w.job .finish job tl) :
    scene tl.state = scene w.timeline.state ∧ records tl.state = records w.timeline.state ++
      ((resultEvent? name w.job.pending).map fun e =>
        (⟨e, some (w.timeline.operationOf name)⟩ : Log.Record)).toList := by
  have hstate := Runner.state_of_moves moves
  rw [h.backend] at hstate
  rw [hstate]
  refine ⟨hb.foldl_log _ _, (hlog.foldl_log _ _).trans ?_⟩
  rw [Runner.records, h.name_eq]
  rfl

section
variable {tl started : Timeline σ} {number handle : Nat} {name : String} {period : Time.Span}
  (positive : 0 < period.totalNanos) (representable : (later? tl.now period).isSome = true)
  (begun : tl.startJob handle name period (.cleanup threshold) = (number, started))
  (serving : tl.backend = b) (rests : (scene tl.state).Rests Tables.Sound)
include positive representable begun serving rests

theorem tended_begin :
    Tended b scene name threshold
      (Runner.startOf tl started handle name period (.cleanup threshold)) := by
  rw [Runner.startJob_of_begin (begin_of_isSome positive representable)] at begun
  obtain ⟨-, rfl⟩ := Prod.mk.inj begun
  refine ⟨serving, rfl, rfl, ?_⟩
  change (scene (tl.backend.log _ tl.state)).Rests _
  rw [serving, hb.log]
  exact rests

/-- Whatever fails, in the cleanup or in the requests beside it, each execution of the cleanup takes
out all that is stale at its time or leaves the tables alone. It reports the number of entries it has
removed if and only if its transaction was committed, and otherwise one error is reported when it
ends. The executions keep to their schedule all the same, and one in which nothing fails takes out
all that is stale, whatever has come of those before. -/
theorem cleanup_recovers_by_itself (hlog : b.Logs records)
    (turns : Relation.ReflTransGen (Turn scene)
      (Runner.startOf tl started handle name period (.cleanup threshold)) w) :
    let p := period.totalNanos
    let r : Rota := ⟨tl.now, p, (Chore.cleanup threshold).work⟩
    let now := w.timeline.wallClock
    let operation := w.timeline.operationOf name
    (∀ k, r.start k = tl.now + (k + 1) * p) ∧
    (∃ n, Runner.OnSchedule r n w) ∧
    (scene w.timeline.state).Rests Tables.Sound ∧
    (∀ job next, w.nextAct = some .start →
      w.timeline.pollJob w.handle w.job = some (job, next) →
      Swept scene records operation (stale now threshold) w.timeline.state next.state job.pending ∧
      (job.pending = .success ↔ ∃ token, Query.commit token (.value ()) ∈
        (Transaction.within b.traced (some operation) (purge now threshold)
          (w.timeline.state, [])).2.2) ∧
      (Transaction.Served b scene (some operation) (purge now threshold) w.timeline.state →
        job.pending = .success ∧
          ∀ e ∈ (scene next.state).store.committed.entries, stale now threshold e = false)) ∧
    (∀ job next, w.nextAct = some .finish →
      w.timeline.pollJob w.handle w.job = some (job, next) →
      scene next.state = scene w.timeline.state ∧ ∃ added,
        records next.state = records w.timeline.state ++ added ∧
        (w.job.pending = .success → added = []) ∧
        (w.job.pending ≠ .success → ∃ r, added = [r] ∧ r.event.level = .error ∧
          r.event.part = .schedule ∧ r.operation = some operation)) := by
  intro p r now operation
  have htended : Tended b scene name threshold w := by
    induction turns with
    | refl => exact tended_begin hb positive representable begun serving rests
    | tail _ last ih => exact ih.turn hb last
  have hruns : Runner.Becomes tl started handle name period (.cleanup threshold) w :=
    turns.lift id fun _ _ => Turn.step
  have hstarts : ∀ k, r.start k = tl.now + (k + 1) * p := fun k =>
    (Rota.start_eq (r := r) (fun _ => Nat.zero_le p) k).1
  refine ⟨hstarts, hruns.onSchedule positive representable begun, htended.rests, ?_, ?_⟩
  · intro job next act polled
    have hexecuted := htended.executes (moves_of_pollJob act polled)
    have hswept := swept_purgeOnce hb hlog htended.rests.holds operation now threshold
    have hcommitted := purgeOnce_success_iff b operation now threshold w.timeline.state
    rw [hexecuted] at hswept hcommitted
    refine ⟨hswept, hcommitted, fun served => ?_⟩
    have hsuccess := purgeOnce_of_served hb htended.rests.holds served
    rw [hexecuted] at hsuccess
    exact ⟨hsuccess, (hsuccess ▸ hswept).not_stale⟩
  · intro job next act polled
    obtain ⟨hscene, hrecords⟩ := htended.reports hb hlog (moves_of_pollJob act polled)
    refine ⟨hscene, _, hrecords, ?_, ?_⟩
    · intro hsuccess
      rw [hsuccess]
      rfl
    · intro hfailed
      cases hresult : w.job.pending with
      | success => exact absurd hresult hfailed
      | error text => exact ⟨_, rfl, rfl, rfl, rfl⟩
      | crash c => exact ⟨_, rfl, rfl, rfl, rfl⟩

end

end

/-- The runner after the next step of its job, if there is one. -/
def onward (w : Runner σ) : Runner σ :=
  match w.nextAct, w.timeline.pollJob w.handle w.job with
  | some a, some (job, tl) => w.go a job tl
  | _, _ => w

theorem turn_onward {a : Act} (h : w.nextAct = some a) : Turn scene w (onward w) := by
  obtain ⟨job, tl, polled⟩ := exists_pollJob h
  have hnext : onward w = w.go a job tl := by simp only [onward, h, polled]
  rw [hnext]
  exact .goes w h polled

/-- The faults of a rehearsal may change at any turn. -/
theorem turn_configure (w : Runner Rehearsal) (faults : Option (List Rehearsal.Fault))
    (change : Rehearsal.FlagChange) :
    Turn Rehearsal.scene w
      (w.act { w.timeline with state := w.timeline.state.configure faults change }) :=
  .changes w rfl (fun h => h) (fun h => h) rfl (Traffic.scene_configure faults change _)

/-- The first execution crashes before its first deletion. Before the second one another entry is
created that is stale already. -/
theorem crashed_cleanup_is_made_up_for :
    let anna : Customer := ⟨⟨1⟩, "anna@example.com"⟩
    let old : Entry := ⟨⟨⟨1⟩, ⟨7⟩, "Hello", "World", .earliest⟩, ⟨1⟩⟩
    let new : Entry := ⟨⟨⟨1⟩, ⟨8⟩, "Hello", "World", .latest⟩, ⟨2⟩⟩
    let r : Rehearsal :=
      { store := ⟨⟨[anna], [old, new], 1, 2⟩, none, 0⟩
        faults := [⟨.deleteEntry, 1, none, .crash (.text "disk is gone")⟩] }
    let tl : Timeline Rehearsal :=
      { now := 3, coordinator := ⟨.ofSeconds 60, false, [{ name := "cleanup" }]⟩
        backend := Rehearsal.backend, state := r, wallClock := .latest, operationId := "a" }
    let threshold := Time.Span.ofSeconds 60
    let started := (tl.startJob 0 jobName (.ofMillis 10) (.cleanup threshold)).2
    let app : App Rehearsal := ⟨Rehearsal.backend, carrier, threshold, .latest⟩
    let creation := posted "/api/messages"
      "[7, \"ben@example.com\", \"Hello\", \"World\", \"2024-05-01T10:00:00Z\"]"
    let begun := Runner.startOf tl started 0 jobName (.ofMillis 10) (.cleanup threshold)
    let crashed := onward (onward (begun.wait 10000003))
    let served := crashed.act
      { crashed.timeline with state := (app.arrive "b" creation crashed.timeline.state).2 }
    let mended := served.act
      { served.timeline with state := served.timeline.state.configure (some []) {} }
    let w := mended.wait 20000003
    Relation.ReflTransGen (Turn Rehearsal.scene) begun w ∧
    (reports w.timeline.state.log).map (·.event.message) =
      ["starting scheduled execution", "recovered from panic in scheduled execution"] ∧
    w.timeline.state.store.committed.entries.map (stale w.timeline.wallClock threshold) =
      [true, false, true] ∧
    w.nextAct = some .start ∧
    ∃ job tl', w.timeline.pollJob w.handle w.job = some (job, tl') ∧ job.pending = .success ∧
      (∀ e ∈ tl'.state.store.committed.entries, stale w.timeline.wallClock threshold e = false) ∧
      reports tl'.state.log = reports w.timeline.state.log ++
        [⟨{ level := .info, part := .cleanup, message := "stale mailing entry cleanup finished"
            fields := [("removed", .whole 2)] }, some (w.timeline.operationOf jobName)⟩] := by
  intro anna old new r tl threshold started app creation begun crashed served mended w
  have hstarted : tl.startJob 0 jobName (.ofMillis 10) (.cleanup threshold) = (0, started) :=
    Prod.ext (by decide +kernel) rfl
  have hpositive : 0 < (Time.Span.ofMillis 10).totalNanos := by decide
  have hrepresentable : (later? tl.now (.ofMillis 10)).isSome = true := by decide +kernel
  have hsound : r.store.committed.Sound :=
    ⟨by decide, by decide, by decide, by decide, by decide, by decide⟩
  have hbegun : Tended Rehearsal.backend Rehearsal.scene jobName threshold begun :=
    tended_begin Rehearsal.faithful hpositive hrepresentable hstarted rfl ⟨rfl, hsound⟩
  have hfirst : begun.job.phase = .idle 10000003 := by decide +kernel
  have hdue : Turn Rehearsal.scene begun (begun.wait 10000003) := by
    refine .waits begun (by decide +kernel) (pollJob_eq_none_iff.mpr (by decide +kernel)) ?_
    rw [hfirst]
    exact fun d hd => Nat.le_of_eq (Option.some.inj hd)
  have hstarts : Turn Rehearsal.scene (begun.wait 10000003) (onward (begun.wait 10000003)) :=
    turn_onward (a := .start) (by decide +kernel)
  have hends : Turn Rehearsal.scene (onward (begun.wait 10000003)) crashed :=
    turn_onward (a := .finish) (by decide +kernel)
  have hcrashed := ((hbegun.turn Rehearsal.faithful hdue).turn Rehearsal.faithful hstarts).turn
    Rehearsal.faithful hends
  have harrives : Turn Rehearsal.scene crashed served :=
    .arrives crashed app hcrashed.backend.symm "b" creation
  have hmends : Turn Rehearsal.scene served mended := turn_configure served (some []) {}
  have hphase : mended.job.phase = .idle 20000003 := by decide +kernel
  have hwaits : Turn Rehearsal.scene mended w := by
    refine .waits mended (by decide +kernel) (pollJob_eq_none_iff.mpr (by decide +kernel)) ?_
    rw [hphase]
    exact fun d hd => Nat.le_of_eq (Option.some.inj hd)
  have turns := (((((Relation.ReflTransGen.single hdue).tail hstarts).tail hends).tail
    harrives).tail hmends).tail hwaits
  have hw : (reports w.timeline.state.log).map (·.event.message) =
        ["starting scheduled execution", "recovered from panic in scheduled execution"] ∧
      w.timeline.state.store.committed.entries.map (stale w.timeline.wallClock threshold) =
        [true, false, true] ∧
      w.nextAct = some .start ∧ w.timeline.state.flags = {} ∧ w.timeline.state.faults = [] := by
    decide +kernel
  obtain ⟨hreports, hentries, hstart, hflags, hfaults⟩ := hw
  obtain ⟨-, -, hrests, hexecutes, -⟩ := cleanup_recovers_by_itself Rehearsal.faithful hpositive
    hrepresentable hstarted rfl ⟨rfl, hsound⟩ Rehearsal.logs turns
  obtain ⟨job, tl', polled⟩ := exists_pollJob hstart
  obtain ⟨hswept, -, hserved⟩ := hexecutes job tl' hstart polled
  have hcalm : w.timeline.state.Undisturbed :=
    ⟨by rw [hflags], by rw [hflags], fun m n recipient _ => by rw [hfaults]; rfl⟩
  obtain ⟨hsuccess, hnone⟩ := hserved (Rehearsal.calm.served _ _ hcalm hrests.closed)
  refine ⟨turns, hreports, hentries, hstart, job, tl', polled, hsuccess, hnone, ?_⟩
  rw [hsuccess] at hswept
  cases hswept with
  | unchanged failed => exact absurd rfl failed
  | purged tables reported =>
    have hcount : ((Rehearsal.scene w.timeline.state).store.committed.entries.filter
        (stale w.timeline.wallClock threshold)).length = 2 := by decide +kernel
    rw [hcount] at reported
    exact reported

end MailDispatch.Cleanup
