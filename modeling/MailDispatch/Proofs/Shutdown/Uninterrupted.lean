import MailDispatch.Proofs.Shutdown.Steps

/-! # Calls that nobody interrupts

Where nobody comes in between, the steps of a call come to what the coordinator does at
once.
-/
namespace MailDispatch.Shutdown.Registration.System

def coordinator (timeout : Time.Span) (s : System) : Coordinator :=
  ⟨timeout, s.requested, s.handles⟩

/-- The system with one more call that registers. -/
def registering (s : System) (r : Registrar) : System :=
  { s with registrars := s.registrars ++ [r] }

/-- The system with one more call that requests shutdown. -/
def requesting (s : System) (r : Requester) : System :=
  { s with requesters := s.requesters ++ [r] }

theorem release_of_free {s : System} (free : s.holder = none) : s.release = s := by
  cases s
  cases free
  rfl

theorem run_cons_of_eq_some {s t : System} {e : Event} (h : s.step e = some t) (es : List Event) :
    s.run (e :: es) = t.run es :=
  run_cons_of_step (step_of_eq_some h) es

/-! ## Registration -/

section
variable {s : System} {i : Nat} {name : String}

theorem step_started (hi : i = s.registrars.length) (free : s.holder = none) :
    (s.registering (.started name)).step (.registrar i) =
      some ({ s with holder := some (.registrar i) }.registering (.locked name)) := by
  simp [step, stepRegistrar, registering, atRegistrar, take, free, hi]

theorem step_locked (hi : i = s.registrars.length) :
    (s.registering (.locked name)).step (.registrar i) =
      some (s.registering (if s.requested then .denied ⟨name⟩ else .admitted name)) := by
  simp [step, stepRegistrar, registering, atRegistrar, hi]
  rfl

theorem step_admitted (hi : i = s.registrars.length) :
    (s.registering (.admitted name)).step (.registrar i) =
      some ((s.add name).registering (.added s.handles.length)) := by
  simp [step, stepRegistrar, registering, atRegistrar, add, hi]

theorem step_added (hi : i = s.registrars.length) {a : Nat} :
    (s.registering (.added a)).step (.registrar i) =
      some (s.release.registering (.registered a)) := by
  simp [step, stepRegistrar, registering, atRegistrar, release, hi]

theorem step_denied (hi : i = s.registrars.length) {r : Refusal} :
    (s.registering (.denied r)).step (.registrar i) =
      some (s.release.registering (.refused r)) := by
  simp [step, stepRegistrar, registering, atRegistrar, release, hi]

theorem run_register_locked (free : s.holder = none) (es : List Event) :
    s.run (.register name :: .registrar s.registrars.length :: es) =
      ({ s with holder := some (.registrar s.registrars.length) }.registering
        (.locked name)).run es := by
  rw [run_cons_of_step (.registers name)]
  exact run_cons_of_eq_some (step_started rfl free) es

/-- A call that registers gets the handle that the coordinator gives. -/
theorem run_register_of_ok (free : s.holder = none) {timeout : Time.Span} {a : Nat}
    {c : Coordinator} (h : (s.coordinator timeout).newHandle name = .ok (a, c)) :
    ∃ es t, s.run (.register name :: es) = some (registering t (.registered a)) ∧
      t.coordinator timeout = c := by
  let i := s.registrars.length
  let held : System := { s with holder := some (.registrar i) }
  unfold coordinator Coordinator.newHandle at h
  split at h
  · cases h
  · next unset =>
    obtain ⟨rfl, rfl⟩ := Prod.mk.inj (Except.ok.inj h)
    have hlocked : (held.registering (.locked name)).step (.registrar i) = some _ :=
      step_locked rfl
    rw [if_neg unset] at hlocked
    have hadmitted : (held.registering (.admitted name)).step (.registrar i) = some _ :=
      step_admitted rfl
    have hadded := step_added (s := held.add name) (i := i) (a := s.handles.length) rfl
    refine ⟨[.registrar i, .registrar i, .registrar i, .registrar i], (held.add name).release, ?_,
      rfl⟩
    rw [run_register_locked free, run_cons_of_eq_some hlocked, run_cons_of_eq_some hadmitted,
      run_cons_of_eq_some hadded, run]

/-- A call that registers is refused where the coordinator refuses it. -/
theorem run_register_of_error (free : s.holder = none) {timeout : Time.Span} {r : Refusal}
    (h : (s.coordinator timeout).newHandle name = .error r) :
    ∃ es, s.run (.register name :: es) = some (s.registering (.refused r)) := by
  let i := s.registrars.length
  let held : System := { s with holder := some (.registrar i) }
  unfold coordinator Coordinator.newHandle at h
  split at h
  · next set =>
    obtain rfl := Except.error.inj h
    have hlocked : (held.registering (.locked name)).step (.registrar i) = some _ :=
      step_locked rfl
    rw [if_pos set] at hlocked
    refine ⟨[.registrar i, .registrar i, .registrar i], ?_⟩
    rw [run_register_locked free, run_cons_of_eq_some hlocked,
      run_cons_of_eq_some (step_denied rfl), run]
    exact congrArg (fun u : System => some (u.registering _)) (release_of_free free)
  · cases h

end

/-! ## Shutdown -/

def signalAll (s : System) (handles : List Nat) : System := handles.foldl signal s

theorem signalAll_eq (s : System) (handles : List Nat) :
    s.signalAll handles = { s with handles := (s.signalAll handles).handles } := by
  induction handles generalizing s with
  | nil => rfl
  | cons a rest ih => exact ih (s.signal a)

theorem getElem?_signalAll (s : System) (handles : List Nat) (a : Nat) :
    (s.signalAll handles).handles[a]? = (s.handles[a]?).map fun h =>
      if a ∈ handles then { h with signalled := true } else h := by
  induction handles generalizing s with
  | nil => simp [signalAll]
  | cons b rest ih =>
    have hnext := ih (s.signal b)
    simp only [signalAll, List.foldl_cons] at hnext ⊢
    rw [hnext, signal, List.getElem?_modify]
    cases s.handles[a]? with
    | none => rfl
    | some h =>
      by_cases hab : b = a
      · by_cases hmem : a ∈ rest <;> simp [hab, hmem]
      · by_cases hmem : a ∈ rest <;> simp [hab, hmem, Ne.symm hab]

theorem handles_signalAll_range (s : System) :
    (s.signalAll (List.range s.handles.length)).handles =
      s.handles.map fun h => { h with signalled := true } := by
  refine List.ext_getElem? fun a => ?_
  rw [getElem?_signalAll, List.getElem?_map]
  by_cases ha : a < s.handles.length
  · simp [ha]
  · simp [List.getElem?_eq_none (Nat.le_of_not_lt ha)]

section
variable {s : System} {i : Nat}

theorem step_signalling (hi : i = s.requesters.length) (handles : List Nat) (a : Nat)
    (todo : List Nat) :
    (s.requesting (.signalling handles (a :: todo))).step (.requester i) =
      some ((s.signal a).requesting (.signalling handles todo)) := by
  simp [step, stepRequester, requesting, atRequester, signal, hi]

theorem run_signalling (hi : i = s.requesters.length) (handles todo : List Nat) :
    (s.requesting (.signalling handles todo)).run
        (List.replicate (todo.length + 1) (.requester i)) =
      some ((s.signalAll todo).requesting (.waiting handles)) := by
  induction todo generalizing s with
  | nil =>
    have hwaits : (s.requesting (.signalling handles [])).step (.requester i) =
        some (s.requesting (.waiting handles)) := by
      simp [step, stepRequester, requesting, atRequester, hi]
    exact run_cons_of_eq_some hwaits []
  | cons a todo ih =>
    rw [List.length_cons, List.replicate_succ,
      run_cons_of_eq_some (step_signalling hi handles a todo)]
    exact ih hi

theorem run_request_started (es : List Event) :
    s.run (.request :: es) = (s.requesting .started).run es :=
  run_cons_of_step .requests es

/-- A call that requests shutdown too late goes away. -/
theorem run_request_of_none {timeout : Time.Span} (h : (s.coordinator timeout).signal? = none) :
    ∃ es, s.run (.request :: es) = some (s.requesting .late) := by
  unfold coordinator Coordinator.signal? at h
  split at h
  · next set =>
    have hlate : (s.requesting .started).step (.requester s.requesters.length) =
        some (s.requesting .late) := by
      simpa [step, stepRequester, requesting, atRequester] using set
    exact ⟨[.requester s.requesters.length],
      by rw [run_request_started, run_cons_of_eq_some hlate, run]⟩
  · cases h

/-- A call that requests shutdown signals what the coordinator signals, and waits for all of it. -/
theorem run_request_of_some (free : s.holder = none) {timeout : Time.Span} {c : Coordinator}
    (h : (s.coordinator timeout).signal? = some c) :
    ∃ es t, s.run (.request :: es) =
        some (requesting t (.waiting (List.range c.handles.length))) ∧
      t.coordinator timeout = c := by
  let i := s.requesters.length
  let flagged : System := { s with requested := true }
  let held : System := { flagged with holder := some (.requester i) }
  let handles := List.range s.handles.length
  unfold coordinator Coordinator.signal? at h
  split at h
  · cases h
  · next unset =>
    obtain rfl := Option.some.inj h
    have hfirst : (s.requesting .started).step (.requester i) =
        some (flagged.requesting .first) := by
      simpa [step, stepRequester, requesting, atRequester, flagged, i] using unset
    have hlocks : (flagged.requesting .first).step (.requester i) =
        some (held.requesting .locked) := by
      simp [step, stepRequester, requesting, atRequester, take, free, held, flagged, i]
    have hcopies : (held.requesting .locked).step (.requester i) =
        some (held.requesting (.copied handles)) := by
      simp [step, stepRequester, requesting, atRequester, held, flagged, handles, i]
    have hreleases : (held.requesting (.copied handles)).step (.requester i) =
        some (held.release.requesting (.signalling handles handles)) := by
      simp [step, stepRequester, requesting, atRequester, release, held, flagged, i]
    have hsignals := run_signalling (s := held.release) (i := i) rfl handles handles
    refine ⟨.requester i :: .requester i :: .requester i :: .requester i ::
      List.replicate (handles.length + 1) (.requester i), held.release.signalAll handles, ?_, ?_⟩
    · rw [run_request_started, run_cons_of_eq_some hfirst, run_cons_of_eq_some hlocks,
        run_cons_of_eq_some hcopies, run_cons_of_eq_some hreleases, hsignals]
      simp [handles]
    · rw [signalAll_eq]
      exact congrArg (Coordinator.mk timeout true) held.release.handles_signalAll_range

end

end MailDispatch.Shutdown.Registration.System
