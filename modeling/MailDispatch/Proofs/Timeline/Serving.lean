import Mathlib.Logic.Relation
import MailDispatch.Proofs.Timeline.Runner

/-! # Watching the server

The server is watched from its start. What it does by itself is not known: it may end at any
time and with any result, or never. Who serves waits for that end and for the signal of the
handle, and after the signal for the end or for the limit of draining, whichever comes first.

The clock stands still while there is something to do, and stops where draining is over. A
watch keeps when the handle was signalled, when and how the server has ended by itself, and when
the handle was notified.
-/
namespace MailDispatch

namespace Shutdown
open Time

theorem totalNanos_shorter (a b : Span) :
    (shorter a b).totalNanos = min a.totalNanos b.totalNanos := by
  unfold shorter
  split <;> omega

theorem timerEnd_of_lt {now : Nat} {s : Span} (h : now + s.totalNanos < clockEnd) :
    timerEnd now s = now + s.totalNanos := by
  rw [timerEnd, later?_eq_some_iff.mpr ⟨h, rfl⟩, Option.getD_some]

theorem timerEnd_of_le {now : Nat} {s : Span} (h : clockEnd ≤ now + s.totalNanos) :
    timerEnd now s = now + farFuture.totalNanos := by
  rw [timerEnd, later?, if_neg (Nat.not_lt.mpr h), Option.getD_none]

theorem le_timerEnd (now : Nat) (s : Span) : now ≤ timerEnd now s := by
  rcases Nat.lt_or_ge (now + s.totalNanos) clockEnd with shown | never
  · exact timerEnd_of_lt shown ▸ Nat.le_add_right _ _
  · exact timerEnd_of_le never ▸ Nat.le_add_right _ _

/-- The ways in which serving goes on, with what is logged of it. -/
inductive ServerPhase.Moves (drain : Span) (signalled : Bool) (ended : Option ServerEnd)
    (now : Nat) : ServerPhase → ServerPhase → List Log.Event → Prop where
  | drain (requested : signalled = true) :
    Moves drain signalled ended now .serving (.draining (timerEnd now drain)) [drainingEvent drain]
  | close {e : ServerEnd} (quiet : signalled = false) (finished : ended = some e) :
    Moves drain signalled ended now .serving (.stopped e) [stoppedEvent]
  | drained {deadline : Nat} {e : ServerEnd} (finished : ended = some e) :
    Moves drain signalled ended now (.draining deadline) (.stopped e) [stoppedEvent]
  | abandon {deadline : Nat} (unended : ended = none) (past : deadline ≤ now) :
    Moves drain signalled ended now (.draining deadline) (.stopped .fine)
      [undrainedEvent, stoppedEvent]

theorem ServerPhase.poll_eq_some_iff {drain : Span} {signalled : Bool} {ended : Option ServerEnd}
    {now : Nat} {p q : ServerPhase} {events : List Log.Event} :
    p.poll drain signalled ended now = some (q, events) ↔
      Moves drain signalled ended now p q events := by
  constructor
  · intro h
    cases p with
    | serving =>
      cases signalled with
      | true =>
        obtain ⟨rfl, rfl⟩ := Prod.mk.inj (Option.some.inj h)
        exact .drain rfl
      | false =>
        obtain ⟨e, finished, h⟩ := Option.map_eq_some_iff.mp h
        obtain ⟨rfl, rfl⟩ := Prod.mk.inj h
        exact .close rfl finished
    | draining deadline =>
      cases ended with
      | some e =>
        obtain ⟨rfl, rfl⟩ := Prod.mk.inj (Option.some.inj h)
        exact .drained rfl
      | none =>
        obtain ⟨past, h⟩ := Option.ite_none_right_eq_some.mp h
        obtain ⟨rfl, rfl⟩ := Prod.mk.inj (Option.some.inj h)
        exact .abandon rfl past
    | stopped e => cases h
  · intro h
    cases h with
    | drain requested => rw [poll, if_pos requested]
    | close quiet finished => simp [poll, quiet, finished]
    | drained finished => simp [poll, finished]
    | abandon unended past => simp [poll, unended, past]

end Shutdown

namespace Timeline
open Shutdown Time

variable {σ : Type}

/-- One step of serving, where `ended` says how the server has ended by itself if it has. -/
def pollServing (tl : Timeline σ) (handle : Nat) (drain : Span) (ended : Option ServerEnd)
    (p : ServerPhase) : Option (ServerPhase × Timeline σ) :=
  (p.poll drain (tl.coordinator.isSignalled handle) ended tl.now).map fun (p, events) =>
    let tl := tl.logAll events
    (p, if p.result?.isSome then tl.notify handle else tl)

structure Serving (σ : Type) where
  timeline : Timeline σ
  handle : Nat
  /-- The limit of draining. -/
  drain : Span
  phase : ServerPhase := .serving
  signalledAt : Option Nat
  /-- When the server has ended by itself, and how. -/
  ended : Option (Nat × ServerEnd) := none
  returned : Option Nat := none
  /-- The times at which the handle was notified by who serves. -/
  notices : List Nat := []

namespace Serving

/-- Serving begins, with a limit of draining that is no longer than the coordinator waits. -/
def start (tl : Timeline σ) (handle : Nat) (drain : Span) : Serving σ where
  timeline := tl
  handle
  drain := shorter tl.coordinator.timeout drain
  signalledAt := Runner.signalTime tl handle

def poll (w : Serving σ) : Option (ServerPhase × Timeline σ) :=
  w.timeline.pollServing w.handle w.drain (w.ended.map Prod.snd) w.phase

def go (phase : ServerPhase) (tl : Timeline σ) (w : Serving σ) : Serving σ :=
  { w with
    timeline := tl
    phase
    returned := if phase.result?.isSome then some w.timeline.now else w.returned
    notices := if phase.result?.isSome then w.notices ++ [w.timeline.now] else w.notices }

/-- The server ends by itself. -/
def finish (e : ServerEnd) (w : Serving σ) : Serving σ :=
  { w with ended := some (w.timeline.now, e) }

/-- Something else goes on, and has changed the timeline. -/
def act (tl : Timeline σ) (w : Serving σ) : Serving σ :=
  { w with timeline := tl, signalledAt := w.signalledAt.or (Runner.signalTime tl w.handle) }

def wait (t : Nat) (w : Serving σ) : Serving σ := { w with timeline := { w.timeline with now := t } }

def AtRest (w : Serving σ) : Prop := w.poll = none

/-- The server ends once at most, and as long as somebody waits for that. Time passes only while
there is nothing to do, and no further than to the end of draining. Nobody takes back a signal,
a notice or a handle. -/
inductive Step : Serving σ → Serving σ → Prop where
  | goes (w : Serving σ) {phase : ServerPhase} {tl : Timeline σ}
      (polled : w.poll = some (phase, tl)) : Step w (w.go phase tl)
  | ends (w : Serving σ) (e : ServerEnd) (first : w.ended = none) (awaited : w.returned = none) :
    Step w (w.finish e)
  | acts (w : Serving σ) {tl : Timeline σ} (now : tl.now = w.timeline.now)
      (signalled : w.timeline.coordinator.isSignalled w.handle = true →
        tl.coordinator.isSignalled w.handle = true)
      (notified : w.timeline.coordinator.isNotified w.handle = true →
        tl.coordinator.isNotified w.handle = true)
      (registered : w.timeline.coordinator.handles.length ≤ tl.coordinator.handles.length) :
    Step w (w.act tl)
  | waits (w : Serving σ) {t : Nat} (later : w.timeline.now < t) (rest : w.AtRest)
      (asleep : ∀ d, w.phase.nextTime = some d → t ≤ d) : Step w (w.wait t)

abbrev Runs : Serving σ → Serving σ → Prop := Relation.ReflTransGen Step

/-- When draining is over at the latest. -/
def limit (w : Serving σ) : Option Nat := w.signalledAt.map fun c => timerEnd c w.drain

/-- When serving should be over: at the end of the server or at the limit of draining. -/
def due (w : Serving σ) : Option Nat := firstOf (w.ended.map Prod.fst) w.limit

/-- The result of serving: that of the server if it has ended by itself. -/
def outcome (w : Serving σ) : ServerEnd := (w.ended.map Prod.snd).getD .fine

theorem Runs.same {w v : Serving σ} (run : Runs w v) : v.handle = w.handle ∧ v.drain = w.drain := by
  induction run with
  | refl => exact ⟨rfl, rfl⟩
  | tail _ last ih =>
    cases last with
    | goes | ends | acts | waits => exact ih

/-- Where serving stands, with the times at which it came there. -/
inductive Stands (w : Serving σ) : Prop where
  | serving (phase : w.phase = .serving) (running : w.returned = none) (silent : w.notices = [])
      (ended : ∀ e, w.ended = some e → e.1 = w.timeline.now)
      (signalled : ∀ c, w.signalledAt = some c → c = w.timeline.now)
  | draining {d : Nat} (limited : w.limit = some d) (phase : w.phase = .draining d)
      (running : w.returned = none) (silent : w.notices = [])
      (ended : ∀ e, w.ended = some e → e.1 = w.timeline.now) (early : w.timeline.now ≤ d)
  | closed {τ : Nat} {e : ServerEnd} (ended : w.ended = some (τ, e)) (phase : w.phase = .stopped e)
      (returned : w.returned = some τ) (once : w.notices = [τ]) (past : τ ≤ w.timeline.now)
      (limited : ∀ d, w.limit = some d → τ ≤ d)
  | abandoned {τ : Nat} (ended : w.ended = none) (limited : w.limit = some τ)
      (phase : w.phase = .stopped .fine) (returned : w.returned = some τ) (once : w.notices = [τ])

structure Kept (w : Serving σ) : Prop where
  stands : w.Stands
  registered : w.handle < w.timeline.coordinator.handles.length
  signalled : w.timeline.coordinator.isSignalled w.handle = w.signalledAt.isSome
  past : ∀ c, w.signalledAt = some c → c ≤ w.timeline.now
  notified : w.returned.isSome = true → w.timeline.coordinator.isNotified w.handle = true

section
variable {w v : Serving σ}

theorem eq_now_of_signalTime {tl : Timeline σ} {handle c : Nat}
    (h : Runner.signalTime tl handle = some c) : c = tl.now :=
  (Option.some.inj (Option.ite_none_right_eq_some.mp h).2).symm

theorem isSome_signalTime (tl : Timeline σ) (handle : Nat) :
    (Runner.signalTime tl handle).isSome = tl.coordinator.isSignalled handle := by
  unfold Runner.signalTime
  cases tl.coordinator.isSignalled handle with
  | true | false => rfl

theorem Kept.start {tl : Timeline σ} {handle : Nat}
    (registered : handle < tl.coordinator.handles.length) (drain : Span) :
    Kept (start tl handle drain) where
  stands := .serving rfl rfl rfl nofun fun _ hc => eq_now_of_signalTime hc
  registered := registered
  signalled := (isSome_signalTime tl handle).symm
  past _ hc := Nat.le_of_eq (eq_now_of_signalTime hc)
  notified := nofun

/-- What is seen of a step of serving in the timeline. -/
theorem exists_moves_of_poll {phase : ServerPhase} {tl : Timeline σ}
    (h : w.poll = some (phase, tl)) :
    ∃ events, ServerPhase.Moves w.drain (w.timeline.coordinator.isSignalled w.handle)
        (w.ended.map Prod.snd) w.timeline.now w.phase phase events ∧
      tl = if phase.result?.isSome then (w.timeline.logAll events).notify w.handle
        else w.timeline.logAll events := by
  obtain ⟨⟨q, events⟩, hpoll, h⟩ := Option.map_eq_some_iff.mp h
  obtain ⟨rfl, rfl⟩ := Prod.mk.inj h
  exact ⟨events, ServerPhase.poll_eq_some_iff.mp hpoll, rfl⟩

theorem now_of_poll {phase : ServerPhase} {tl : Timeline σ} (h : w.poll = some (phase, tl)) :
    tl.now = w.timeline.now := by
  obtain ⟨events, -, rfl⟩ := exists_moves_of_poll h
  split
  · rw [now_notify, now_logAll]
  · exact now_logAll events w.timeline

theorem coordinator_of_poll {phase : ServerPhase} {tl : Timeline σ}
    (h : w.poll = some (phase, tl)) :
    tl.coordinator = if phase.result?.isSome then w.timeline.coordinator.notify w.handle
      else w.timeline.coordinator := by
  obtain ⟨events, -, rfl⟩ := exists_moves_of_poll h
  split
  · rw [coordinator_notify, coordinator_logAll]
  · exact coordinator_logAll events w.timeline

@[simp] theorem limit_go (phase : ServerPhase) (tl : Timeline σ) (w : Serving σ) :
    (w.go phase tl).limit = w.limit := rfl

theorem limit_of_signalledAt {c : Nat} (h : w.signalledAt = some c) :
    w.limit = some (timerEnd c w.drain) := by
  rw [limit, h, Option.map_some]

theorem limit_act {d : Nat} (h : w.limit = some d) (tl : Timeline σ) :
    (w.act tl).limit = some d := by
  obtain ⟨c, hc, rfl⟩ := Option.map_eq_some_iff.mp h
  have signalledAt : (w.act tl).signalledAt = some c := by rw [Serving.act, hc, Option.some_or]
  exact limit_of_signalledAt signalledAt

theorem Kept.stands_go (h : w.Kept) {phase : ServerPhase} {tl : Timeline σ}
    (polled : w.poll = some (phase, tl)) : (w.go phase tl).Stands := by
  have now : (w.go phase tl).timeline.now = w.timeline.now := now_of_poll polled
  obtain ⟨events, moves, -⟩ := exists_moves_of_poll polled
  generalize hp : w.phase = p at moves
  cases moves with
  | drain requested =>
    rw [h.signalled] at requested
    obtain ⟨c, hc⟩ := Option.isSome_iff_exists.mp requested
    cases h.stands with
    | serving phase running silent ended signalled =>
      obtain rfl := signalled c hc
      refine .draining (limit_of_signalledAt hc) rfl running silent
        (fun e he => (ended e he).trans now.symm) ?_
      rw [now]
      exact le_timerEnd _ _
    | draining _ phase | closed _ phase | abandoned _ _ phase =>
      rw [hp] at phase
      cases phase
  | close quiet finished =>
    rw [h.signalled, Option.isSome_eq_false_iff, Option.isNone_iff_eq_none] at quiet
    obtain ⟨⟨τ, e⟩, hended, rfl⟩ := Option.map_eq_some_iff.mp finished
    cases h.stands with
    | serving phase running silent ended signalled =>
      obtain rfl := ended _ hended
      refine .closed hended rfl rfl ?_ (Nat.le_of_eq now.symm) fun d hd => ?_
      · exact congrArg (· ++ [_]) silent
      · rw [limit_go, limit, quiet] at hd
        cases hd
    | draining _ phase | closed _ phase | abandoned _ _ phase =>
      rw [hp] at phase
      cases phase
  | drained finished =>
    obtain ⟨⟨τ, e⟩, hended, rfl⟩ := Option.map_eq_some_iff.mp finished
    cases h.stands with
    | draining limited phase running silent ended early =>
      obtain rfl := ended _ hended
      refine .closed hended rfl rfl ?_ (Nat.le_of_eq now.symm) fun d hd => ?_
      · exact congrArg (· ++ [_]) silent
      · obtain rfl := Option.some.inj (limited.symm.trans hd)
        exact early
    | serving phase | closed _ phase | abandoned _ _ phase =>
      rw [hp] at phase
      cases phase
  | abandon unended past =>
    have hended := Option.map_eq_none_iff.mp unended
    cases h.stands with
    | draining limited phase running silent ended early =>
      rw [hp, ServerPhase.draining.injEq] at phase
      obtain rfl := phase
      obtain rfl := Nat.le_antisymm past early
      refine .abandoned hended limited rfl rfl ?_
      exact congrArg (· ++ [_]) silent
    | serving phase | closed _ phase | abandoned _ _ phase =>
      rw [hp] at phase
      cases phase

theorem Kept.go (h : w.Kept) {phase : ServerPhase} {tl : Timeline σ}
    (polled : w.poll = some (phase, tl)) : (w.go phase tl).Kept := by
  have coordinator : (w.go phase tl).timeline.coordinator = _ := coordinator_of_poll polled
  have now : (w.go phase tl).timeline.now = w.timeline.now := now_of_poll polled
  refine ⟨h.stands_go polled, ?_, ?_, fun c hc => now ▸ h.past c hc, ?_⟩
  · rw [coordinator]
    split
    · rw [Coordinator.length_notify]
      exact h.registered
    · exact h.registered
  · rw [coordinator]
    split
    · rw [Coordinator.isSignalled_notify]
      exact h.signalled
    · exact h.signalled
  · intro finished
    rw [coordinator]
    split
    · rw [Coordinator.isNotified_notify]
      simp [Serving.go, h.registered]
    · next quiet =>
      refine h.notified ?_
      simpa only [Serving.go, if_neg quiet] using finished

theorem Kept.finish (h : w.Kept) (e : ServerEnd) (awaited : w.returned = none) :
    (w.finish e).Kept := by
  have ended : ∀ x, (w.finish e).ended = some x → x.1 = w.timeline.now := by
    rintro x ⟨⟩
    rfl
  refine ⟨?_, h.registered, h.signalled, h.past, h.notified⟩
  cases h.stands with
  | serving phase running silent _ signalled =>
    exact .serving phase running silent ended signalled
  | draining limited phase running silent _ early =>
    exact .draining limited phase running silent ended early
  | closed _ _ returned | abandoned _ _ _ returned =>
    rw [awaited] at returned
    cases returned

theorem signalledAt_act {tl : Timeline σ} {c : Nat} (h : (w.act tl).signalledAt = some c) :
    w.signalledAt = some c ∨ c = tl.now := by
  rcases Option.or_eq_some_iff.mp h with hold | ⟨-, hnew⟩
  · exact .inl hold
  · exact .inr (eq_now_of_signalTime hnew)

/-- A signal that comes after the end of serving sets no limit before that end. -/
theorem Stands.act (h : w.Stands) {tl : Timeline σ} (now : tl.now = w.timeline.now) :
    (w.act tl).Stands := by
  cases h with
  | serving phase running silent ended signalled =>
    refine .serving phase running silent (fun e he => (ended e he).trans now.symm) fun c hc => ?_
    rcases signalledAt_act hc with hold | rfl
    · exact (signalled c hold).trans now.symm
    · rfl
  | draining limited phase running silent ended early =>
    exact .draining (limit_act limited tl) phase running silent
      (fun e he => (ended e he).trans now.symm) (Nat.le_trans (Nat.le_of_eq now) early)
  | closed ended phase returned once past limited =>
    refine .closed ended phase returned once (Nat.le_trans past (Nat.le_of_eq now.symm))
      fun d hd => ?_
    obtain ⟨c, hc, rfl⟩ := Option.map_eq_some_iff.mp hd
    rcases signalledAt_act hc with hold | rfl
    · exact limited _ (limit_of_signalledAt hold)
    · exact Nat.le_trans past (Nat.le_trans (Nat.le_of_eq now.symm) (le_timerEnd _ _))
  | abandoned ended limited phase returned once =>
    exact .abandoned ended (limit_act limited tl) phase returned once

theorem Kept.act (h : w.Kept) {tl : Timeline σ} (now : tl.now = w.timeline.now)
    (signalled : w.timeline.coordinator.isSignalled w.handle = true →
      tl.coordinator.isSignalled w.handle = true)
    (notified : w.timeline.coordinator.isNotified w.handle = true →
      tl.coordinator.isNotified w.handle = true)
    (registered : w.timeline.coordinator.handles.length ≤ tl.coordinator.handles.length) :
    (w.act tl).Kept := by
  refine ⟨h.stands.act now, Nat.lt_of_lt_of_le h.registered registered, ?_, fun c hc => ?_,
    fun finished => notified (h.notified finished)⟩
  · simp only [Serving.act, Option.isSome_or, isSome_signalTime, ← h.signalled]
    cases hold : w.timeline.coordinator.isSignalled w.handle with
    | true => exact signalled hold
    | false => rfl
  · rcases signalledAt_act hc with hold | rfl
    · exact Nat.le_trans (h.past c hold) (Nat.le_of_eq now.symm)
    · exact Nat.le_refl _

theorem poll_eq_none_iff :
    w.AtRest ↔ w.phase.poll w.drain (w.timeline.coordinator.isSignalled w.handle)
      (w.ended.map Prod.snd) w.timeline.now = none :=
  Option.map_eq_none_iff

/-- Who waits for the server has not seen it end. -/
theorem Kept.ended_of_atRest (h : w.Kept) (rest : w.AtRest) (running : w.returned = none) :
    w.ended = none ∧ (w.phase = .serving → w.signalledAt = none) := by
  rw [poll_eq_none_iff, h.signalled] at rest
  cases h.stands with
  | serving phase =>
    rw [phase] at rest
    cases hsignalled : w.signalledAt with
    | some c => simp [ServerPhase.poll, hsignalled] at rest
    | none =>
      refine ⟨?_, fun _ => rfl⟩
      simpa [ServerPhase.poll, hsignalled] using rest
  | draining _ phase =>
    rw [phase] at rest
    refine ⟨?_, fun serving => by rw [phase] at serving; cases serving⟩
    cases hended : w.ended with
    | none => rfl
    | some e => simp [ServerPhase.poll, hended] at rest
  | closed _ _ returned | abandoned _ _ _ returned =>
    rw [running] at returned
    cases returned

theorem Kept.wait (h : w.Kept) {t : Nat} (later : w.timeline.now < t) (rest : w.AtRest)
    (asleep : ∀ d, w.phase.nextTime = some d → t ≤ d) : (w.wait t).Kept := by
  refine ⟨?_, h.registered, h.signalled,
    fun c hc => Nat.le_trans (h.past c hc) (Nat.le_of_lt later), h.notified⟩
  cases h.stands with
  | serving phase running silent _ _ =>
    obtain ⟨hended, hsignalled⟩ := h.ended_of_atRest rest running
    refine .serving phase running silent ?_ ?_
    · simp [Serving.wait, hended]
    · simp [Serving.wait, hsignalled phase]
  | draining limited phase running silent _ _ =>
    obtain ⟨hended, -⟩ := h.ended_of_atRest rest running
    refine .draining limited phase running silent ?_ (asleep _ ?_)
    · simp [Serving.wait, hended]
    · rw [phase]
      rfl
  | closed ended phase returned once past limited =>
    exact .closed ended phase returned once (Nat.le_trans past (Nat.le_of_lt later)) limited
  | abandoned ended limited phase returned once =>
    exact .abandoned ended limited phase returned once

theorem Kept.step (h : w.Kept) (s : Step w v) : v.Kept := by
  cases s with
  | goes polled => exact h.go polled
  | ends e _ awaited => exact h.finish e awaited
  | acts now signalled notified registered => exact h.act now signalled notified registered
  | waits later rest asleep => exact h.wait later rest asleep

theorem Kept.runs (h : w.Kept) (run : Runs w v) : v.Kept := by
  induction run with
  | refl => exact h
  | tail _ last ih => exact ih.step last

end

/-! ## What a whole run comes to -/

/-- Who serves goes on by itself. -/
inductive Goes : Serving σ → Serving σ → Prop where
  | mk {w : Serving σ} {phase : ServerPhase} {tl : Timeline σ}
      (polled : w.poll = some (phase, tl)) : Goes w (w.go phase tl)

/-- Serving is over when the server ends by itself or when its limit of draining has come, whichever
comes first; it gives the result of the server if that has ended. -/
structure Bounded (w : Serving σ) : Prop where
  /-- The handle is notified once, when serving is over, and not before. -/
  once : w.notices = w.returned.toList
  notified : w.returned.isSome = true → w.timeline.coordinator.isNotified w.handle = true
  /-- It is over at that time and not at another one. -/
  returned : ∀ τ, w.returned = some τ → w.due = some τ ∧ w.phase.result? = some w.outcome
  running : w.returned = none → w.phase.result? = none
  /-- The clock does not go past that time before. -/
  punctual : w.returned = none → ∀ x, w.due = some x → w.timeline.now ≤ x
  /-- At that time nothing has to come from elsewhere for it to be over. -/
  prompt : ∀ x, w.due = some x → x ≤ w.timeline.now →
    ∃ v, Relation.ReflTransGen Goes w v ∧ v.timeline.now = w.timeline.now ∧ v.returned = some x

section
variable {w : Serving σ}

theorem due_of_ended_now (hlimit : ∀ d, w.limit = some d → w.timeline.now ≤ d) {e : Nat × ServerEnd}
    (hended : w.ended = some e) (hnow : e.1 = w.timeline.now) : w.due = some w.timeline.now := by
  rw [due, hended, Option.map_some, hnow]
  cases hl : w.limit with
  | none => rfl
  | some d => exact congrArg some (Nat.min_eq_left (hlimit d hl))

theorem due_of_not_ended (hended : w.ended = none) : w.due = w.limit := by
  rw [due, hended]
  cases w.limit with
  | none | some d => rfl

theorem Stands.now_le_limit (h : w.Stands) (running : w.returned = none) {d : Nat}
    (hd : w.limit = some d) : w.timeline.now ≤ d := by
  cases h with
  | serving phase _ _ _ signalled =>
    obtain ⟨c, hc, rfl⟩ := Option.map_eq_some_iff.mp hd
    obtain rfl := signalled c hc
    exact le_timerEnd _ _
  | draining limited _ _ _ _ early =>
    obtain rfl := Option.some.inj (limited.symm.trans hd)
    exact early
  | closed _ _ returned | abandoned _ _ _ returned =>
    rw [running] at returned
    cases returned

theorem Stands.ended_now (h : w.Stands) (running : w.returned = none) {e : Nat × ServerEnd}
    (he : w.ended = some e) : e.1 = w.timeline.now := by
  cases h with
  | serving _ _ _ ended | draining _ _ _ _ ended => exact ended e he
  | closed _ _ returned | abandoned _ _ _ returned =>
    rw [running] at returned
    cases returned

theorem Stands.now_le_due (h : w.Stands) (running : w.returned = none) {x : Nat}
    (hx : w.due = some x) : w.timeline.now ≤ x := by
  have hlimit : ∀ d, w.limit = some d → w.timeline.now ≤ d := fun d => h.now_le_limit running
  cases he : w.ended with
  | none =>
    rw [due_of_not_ended he] at hx
    exact hlimit x hx
  | some e =>
    rw [due_of_ended_now hlimit he (h.ended_now running he)] at hx
    exact Nat.le_of_eq (Option.some.inj hx)

theorem Stands.returned_due (h : w.Stands) {τ : Nat} (returned : w.returned = some τ) :
    w.due = some τ ∧ w.phase.result? = some w.outcome := by
  cases h with
  | serving _ running | draining _ _ running =>
    rw [returned] at running
    cases running
  | @closed x e ended phase back _ _ limited =>
    obtain rfl := Option.some.inj (back.symm.trans returned)
    refine ⟨?_, ?_⟩
    · rw [due, ended]
      cases hl : w.limit with
      | none => rfl
      | some d => exact congrArg some (Nat.min_eq_left (limited d hl))
    · rw [phase, outcome, ended]
      rfl
  | abandoned ended limited phase back =>
    obtain rfl := Option.some.inj (back.symm.trans returned)
    refine ⟨(due_of_not_ended ended).trans limited, ?_⟩
    rw [phase, outcome, ended]
    rfl

theorem poll_of_moves {q : ServerPhase} {events : List Log.Event}
    (moves : ServerPhase.Moves w.drain (w.timeline.coordinator.isSignalled w.handle)
      (w.ended.map Prod.snd) w.timeline.now w.phase q events) :
    w.poll = some (q, if q.result?.isSome then (w.timeline.logAll events).notify w.handle
      else w.timeline.logAll events) := by
  rw [poll, pollServing, ServerPhase.poll_eq_some_iff.mpr moves, Option.map_some]

theorem returned_go {q : ServerPhase} (stopped : q.result?.isSome = true) (tl : Timeline σ) :
    (w.go q tl).returned = some w.timeline.now := by
  rw [go, if_pos stopped]

/-- Draining that is due comes to its end. -/
theorem exists_goes_of_draining {deadline : Nat} (phase : w.phase = .draining deadline)
    (due : w.ended = none → deadline ≤ w.timeline.now) :
    ∃ v, Goes w v ∧ v.timeline.now = w.timeline.now ∧ v.returned = some w.timeline.now := by
  have moves : ∃ e events, ServerPhase.Moves w.drain (w.timeline.coordinator.isSignalled w.handle)
      (w.ended.map Prod.snd) w.timeline.now w.phase (.stopped e) events := by
    rw [phase]
    cases hended : w.ended with
    | some e => exact ⟨e.2, _, .drained rfl⟩
    | none => exact ⟨.fine, _, .abandon rfl (due hended)⟩
  obtain ⟨e, events, moves⟩ := moves
  have polled := poll_of_moves moves
  exact ⟨_, .mk polled, now_of_poll polled, returned_go rfl _⟩

theorem Kept.exists_goes_of_due (h : w.Kept) (running : w.returned = none)
    (hdue : w.due = some w.timeline.now) :
    ∃ v, Relation.ReflTransGen Goes w v ∧ v.timeline.now = w.timeline.now ∧
      v.returned = some w.timeline.now := by
  have hlimit : w.ended = none → w.limit = some w.timeline.now :=
    fun hended => (due_of_not_ended hended).symm.trans hdue
  cases h.stands with
  | draining limited phase =>
    have past : w.ended = none → _ := fun hended =>
      Nat.le_of_eq (Option.some.inj (limited.symm.trans (hlimit hended)))
    obtain ⟨v, goes, now, returned⟩ := exists_goes_of_draining phase past
    exact ⟨v, .single goes, now, returned⟩
  | serving phase _ _ ended signalled =>
    cases hsignal : w.signalledAt with
    | none =>
      -- without a signal only the end of the server can be due
      cases hended : w.ended with
      | none =>
        have never : w.limit = none := by rw [limit, hsignal, Option.map_none]
        rw [hlimit hended] at never
        cases never
      | some e =>
        have moves : ServerPhase.Moves w.drain (w.timeline.coordinator.isSignalled w.handle)
            (w.ended.map Prod.snd) w.timeline.now w.phase (.stopped e.2) [stoppedEvent] := by
          rw [phase, hended, h.signalled, hsignal]
          exact .close rfl rfl
        have polled := poll_of_moves moves
        exact ⟨_, .single (.mk polled), now_of_poll polled, returned_go rfl _⟩
    | some c =>
      obtain rfl := signalled c hsignal
      have moves : ServerPhase.Moves w.drain (w.timeline.coordinator.isSignalled w.handle)
          (w.ended.map Prod.snd) w.timeline.now w.phase
          (.draining (timerEnd w.timeline.now w.drain)) [drainingEvent w.drain] := by
        rw [phase, h.signalled, hsignal]
        exact .drain rfl
      have polled := poll_of_moves moves
      have now := now_of_poll polled
      have limited := limit_of_signalledAt hsignal
      have past : w.ended = none → timerEnd w.timeline.now w.drain ≤ w.timeline.now := fun hended =>
        Nat.le_of_eq (Option.some.inj (limited.symm.trans (hlimit hended)))
      obtain ⟨v, goes, still, returned⟩ := exists_goes_of_draining
        (w := w.go (.draining (timerEnd w.timeline.now w.drain)) _) rfl
        fun hended => Nat.le_trans (past hended) (Nat.le_of_eq now.symm)
      exact ⟨v, (Relation.ReflTransGen.single (.mk polled)).tail goes, still.trans now,
        returned.trans (congrArg some now)⟩
  | closed _ _ returned | abandoned _ _ _ returned =>
    rw [running] at returned
    cases returned

theorem Kept.bounded (h : w.Kept) : w.Bounded where
  once := by
    cases h.stands with
    | serving _ running silent | draining _ _ running silent =>
      rw [running, silent]
      rfl
    | closed _ _ returned once | abandoned _ _ _ returned once =>
      rw [returned, once]
      rfl
  notified := h.notified
  returned _ := h.stands.returned_due
  running := by
    intro running
    cases h.stands with
    | serving phase | draining _ phase =>
      rw [phase]
      rfl
    | closed _ _ returned | abandoned _ _ _ returned =>
      rw [running] at returned
      cases returned
  punctual running _ := h.stands.now_le_due running
  prompt := by
    intro x hx past
    cases hreturned : w.returned with
    | some τ =>
      obtain rfl := Option.some.inj (hx.symm.trans (h.stands.returned_due hreturned).1)
      exact ⟨w, .refl, rfl, hreturned⟩
    | none =>
      obtain rfl := Nat.le_antisymm past (h.stands.now_le_due hreturned hx)
      exact h.exists_goes_of_due hreturned hx

end

end Serving
end Timeline
end MailDispatch
