import MailDispatch.Shutdown.Registration

/-! # Steps of registration and shutdown

What a step of a call can be, and what every step keeps whoever takes it: the handles that
there are and the names under which the calls were made. Who holds a handle refers to it by
its place in the list; its clones are the references to one place.
-/
namespace MailDispatch.Shutdown.Registration

/-- Between taking the lock and releasing it. -/
def Registrar.holds : Registrar → Bool
  | .locked _ | .admitted _ | .denied _ | .added _ => true
  | .started _ | .registered _ | .refused _ => false

/-- The name with which the call was made. -/
def Registrar.name? (handles : List Handle) : Registrar → Option String
  | .started name | .locked name | .admitted name => some name
  | .denied r | .refused r => some r.name
  | .added a | .registered a => (handles[a]?).map Handle.name

/-- The request has found the flag unset. -/
def Requester.counts : Requester → Bool
  | .started | .late => false
  | .first | .locked | .copied _ | .signalling _ _ | .waiting _ => true

def Requester.holds : Requester → Bool
  | .locked | .copied _ => true
  | .started | .late | .first | .signalling _ _ | .waiting _ => false

def Requester.copy? : Requester → Option (List Nat)
  | .copied handles | .signalling handles _ | .waiting handles => some handles
  | .started | .late | .first | .locked => none

/-- The handles of its copy that the request has not signalled yet. -/
def Requester.todo : Requester → List Nat
  | .copied handles => handles
  | .signalling _ todo => todo
  | .started | .late | .first | .locked | .waiting _ => []

namespace System

def isSignalled (s : System) (a : Nat) : Bool := (s.handles[a]?).any Handle.signalled

def inside (s : System) : Holder → Bool
  | .registrar i => (s.registrars[i]?).any Registrar.holds
  | .requester i => (s.requesters[i]?).any Requester.holds

/-! ## Steps -/

/-- All that a step can be. -/
inductive Step (s : System) : Event → System → Prop where
  | registers (name : String) :
    Step s (.register name) { s with registrars := s.registrars ++ [.started name] }
  | requests : Step s .request { s with requesters := s.requesters ++ [.started] }
  | notifies (a : Nat) : Step s (.notify a) (s.notify a)
  | locks {i : Nat} {name : String} (here : s.registrars[i]? = some (.started name))
    (free : s.holder = none) :
    Step s (.registrar i)
      ({ s with holder := some (.registrar i) }.atRegistrar i (.locked name))
  | admits {i : Nat} {name : String} (here : s.registrars[i]? = some (.locked name))
    (unset : s.requested = false) : Step s (.registrar i) (s.atRegistrar i (.admitted name))
  | denies {i : Nat} {name : String} (here : s.registrars[i]? = some (.locked name))
    (set : s.requested = true) : Step s (.registrar i) (s.atRegistrar i (.denied ⟨name⟩))
  | adds {i : Nat} {name : String} (here : s.registrars[i]? = some (.admitted name)) :
    Step s (.registrar i) ((s.add name).atRegistrar i (.added s.handles.length))
  | returns {i a : Nat} (here : s.registrars[i]? = some (.added a)) :
    Step s (.registrar i) (s.release.atRegistrar i (.registered a))
  | refuses {i : Nat} {r : Refusal} (here : s.registrars[i]? = some (.denied r)) :
    Step s (.registrar i) (s.release.atRegistrar i (.refused r))
  | comesLate {i : Nat} (here : s.requesters[i]? = some .started) (set : s.requested = true) :
    Step s (.requester i) (s.atRequester i .late)
  | comesFirst {i : Nat} (here : s.requesters[i]? = some .started) (unset : s.requested = false) :
    Step s (.requester i) ({ s with requested := true }.atRequester i .first)
  | locksList {i : Nat} (here : s.requesters[i]? = some .first) (free : s.holder = none) :
    Step s (.requester i) ({ s with holder := some (.requester i) }.atRequester i .locked)
  | copies {i : Nat} (here : s.requesters[i]? = some .locked) :
    Step s (.requester i) (s.atRequester i (.copied (List.range s.handles.length)))
  | releases {i : Nat} {handles : List Nat} (here : s.requesters[i]? = some (.copied handles)) :
    Step s (.requester i) (s.release.atRequester i (.signalling handles handles))
  | signals {i a : Nat} {handles todo : List Nat}
    (here : s.requesters[i]? = some (.signalling handles (a :: todo))) :
    Step s (.requester i) ((s.signal a).atRequester i (.signalling handles todo))
  | waits {i : Nat} {handles : List Nat}
    (here : s.requesters[i]? = some (.signalling handles [])) :
    Step s (.requester i) (s.atRequester i (.waiting handles))

theorem take_eq_some {s t : System} {h : Holder} (ht : s.take h = some t) :
    s.holder = none ∧ t = { s with holder := some h } := by
  unfold take at ht
  split at ht
  · next free => exact ⟨free, (Option.some.inj ht).symm⟩
  · cases ht

theorem step_of_stepRegistrar {s t : System} {i : Nat} (h : s.stepRegistrar i = some t) :
    Step s (.registrar i) t := by
  unfold stepRegistrar at h
  split at h
  · next name here =>
    obtain ⟨u, hu, rfl⟩ := Option.map_eq_some_iff.mp h
    obtain ⟨free, rfl⟩ := take_eq_some hu
    exact .locks here free
  · next name here =>
    obtain rfl := Option.some.inj h
    cases hr : s.requested with
    | true => exact .denies here hr
    | false => exact .admits here hr
  · next name here =>
    obtain rfl := Option.some.inj h
    exact .adds here
  · next a here =>
    obtain rfl := Option.some.inj h
    exact .returns here
  · next r here =>
    obtain rfl := Option.some.inj h
    exact .refuses here
  all_goals cases h

theorem step_of_stepRequester {s t : System} {i : Nat} (h : s.stepRequester i = some t) :
    Step s (.requester i) t := by
  unfold stepRequester at h
  split at h
  · next here =>
    split at h
    · next set =>
      obtain rfl := Option.some.inj h
      exact .comesLate here set
    · next unset =>
      obtain rfl := Option.some.inj h
      exact .comesFirst here (by simpa using unset)
  · next here =>
    obtain ⟨u, hu, rfl⟩ := Option.map_eq_some_iff.mp h
    obtain ⟨free, rfl⟩ := take_eq_some hu
    exact .locksList here free
  · next here =>
    obtain rfl := Option.some.inj h
    exact .copies here
  · next handles here =>
    obtain rfl := Option.some.inj h
    exact .releases here
  · next handles a todo here =>
    obtain rfl := Option.some.inj h
    exact .signals here
  · next handles here =>
    obtain rfl := Option.some.inj h
    exact .waits here
  all_goals cases h

theorem step_of_eq_some {s t : System} {e : Event} (h : s.step e = some t) : Step s e t := by
  cases e with
  | register name =>
    obtain rfl := Option.some.inj h
    exact .registers name
  | request =>
    obtain rfl := Option.some.inj h
    exact .requests
  | registrar i => exact step_of_stepRegistrar h
  | requester i => exact step_of_stepRequester h
  | notify a =>
    obtain rfl := Option.some.inj h
    exact .notifies a

theorem step_iff {s t : System} {e : Event} : s.step e = some t ↔ Step s e t := by
  refine ⟨step_of_eq_some, ?_⟩
  intro h
  cases h with
  | registers | requests | notifies => rfl
  | locks here free => simp [step, stepRegistrar, here, take, free]
  | admits here unset => simp [step, stepRegistrar, here, unset]
  | denies here set => simp [step, stepRegistrar, here, set]
  | adds here | returns here | refuses here => simp [step, stepRegistrar, here]
  | comesLate here set => simp [step, stepRequester, here, set]
  | comesFirst here unset => simp [step, stepRequester, here, unset]
  | locksList here free => simp [step, stepRequester, here, take, free]
  | copies here | releases here | signals here | waits here =>
    simp [step, stepRequester, here]

theorem run_cons_of_step {s t : System} {e : Event} (h : Step s e t) (es : List Event) :
    s.run (e :: es) = t.run es := by
  rw [run, step_iff.mpr h, Option.bind_some]

theorem getElem?_set_of_some {α : Type} {l : List α} {i : Nat} {a : α} (h : l[i]? = some a)
    (b : α) (j : Nat) : (l.set i b)[j]? = if j = i then some b else l[j]? := by
  obtain ⟨hi, -⟩ := List.getElem?_eq_some_iff.mp h
  by_cases hj : j = i
  · simp [hj, hi]
  · simp [hj, List.getElem?_set_ne (Ne.symm hj)]

theorem getElem?_concat {α : Type} (l : List α) (a : α) (j : Nat) :
    (l ++ [a])[j]? = if j = l.length then some a else l[j]? := by
  by_cases hj : j = l.length
  · simp [hj]
  · by_cases hlt : j < l.length
    · simp [hj, List.getElem?_append_left hlt]
    · have hle : (l ++ [a]).length ≤ j := by
        rw [List.length_append, List.length_singleton]
        omega
      rw [if_neg hj, List.getElem?_eq_none hle, List.getElem?_eq_none (by omega)]

/-! ## Handles -/

/-- The second handle is the first one some time later. -/
def LeadsTo (x y : Handle) : Prop :=
  y.name = x.name ∧ (x.signalled = true → y.signalled = true) ∧
    (x.notified = true → y.notified = true)

theorem LeadsTo.refl (x : Handle) : LeadsTo x x := ⟨rfl, id, id⟩

theorem LeadsTo.trans {x y z : Handle} (h : LeadsTo x y) (k : LeadsTo y z) : LeadsTo x z :=
  ⟨k.1.trans h.1, k.2.1 ∘ h.2.1, k.2.2 ∘ h.2.2⟩

theorem leadsTo_modify {handles : List Handle} {f : Handle → Handle} (hf : ∀ x, LeadsTo x (f x))
    (b : Nat) {a : Nat} {x : Handle} (hx : handles[a]? = some x) :
    ∃ y, (handles.modify b f)[a]? = some y ∧ LeadsTo x y := by
  rw [List.getElem?_modify, hx]
  by_cases hb : b = a
  · exact ⟨f x, by simp [hb], hf x⟩
  · exact ⟨x, by simp [hb], .refl x⟩

theorem leadsTo_step {s t : System} {e : Event} (hstep : Step s e t) {a : Nat} {x : Handle}
    (hx : s.handles[a]? = some x) : ∃ y, t.handles[a]? = some y ∧ LeadsTo x y := by
  cases hstep with
  | notifies b =>
    refine leadsTo_modify ?_ b hx
    exact fun _ => ⟨rfl, id, fun _ => rfl⟩
  | signals here =>
    refine leadsTo_modify ?_ _ hx
    exact fun _ => ⟨rfl, fun _ => rfl, id⟩
  | adds here =>
    exact ⟨x, (List.getElem?_append_left (List.getElem?_eq_some_iff.mp hx).1).trans hx, .refl x⟩
  | registers | requests | locks | admits | denies | returns | refuses | comesLate | comesFirst
  | locksList | copies | releases | waits => exact ⟨x, hx, .refl x⟩

theorem leadsTo_run {s t : System} {es : List Event} (h : s.run es = some t) {a : Nat} {x : Handle}
    (hx : s.handles[a]? = some x) : ∃ y, t.handles[a]? = some y ∧ LeadsTo x y := by
  have hkeep : ∀ (u : System) e v, (∃ y, u.handles[a]? = some y ∧ LeadsTo x y) →
      u.step e = some v → ∃ y, v.handles[a]? = some y ∧ LeadsTo x y := by
    rintro u e v ⟨y, hy, hxy⟩ hstep
    obtain ⟨z, hz, hyz⟩ := leadsTo_step (step_of_eq_some hstep) hy
    exact ⟨z, hz, hxy.trans hyz⟩
  exact run_keeps hkeep ⟨x, hx, .refl x⟩ h

theorem isSignalled_eq_true {s : System} {a : Nat} :
    s.isSignalled a = true ↔ ∃ x, s.handles[a]? = some x ∧ x.signalled = true := by
  simp [isSignalled, Option.any_eq_true]

theorem isSignalled_step {s t : System} {e : Event} (hstep : Step s e t) {a : Nat}
    (h : s.isSignalled a = true) : t.isSignalled a = true := by
  obtain ⟨x, hx, hsignalled⟩ := isSignalled_eq_true.mp h
  obtain ⟨y, hy, hxy⟩ := leadsTo_step hstep hx
  exact isSignalled_eq_true.mpr ⟨y, hy, hxy.2.1 hsignalled⟩

theorem isSignalled_signal (s : System) {a : Nat} (ha : a < s.handles.length) :
    (s.signal a).isSignalled a = true := by
  simp [isSignalled, signal, ha]

/-! ## The calls -/

end System

def Event.name? : Event → Option String
  | .register name => some name
  | .request | .registrar _ | .requester _ | .notify _ => none

/-- The names of the calls that register, in their order. -/
def names (es : List Event) : List String := es.filterMap Event.name?

namespace System

structure Named (calls : List String) (s : System) : Prop where
  length_eq : s.registrars.length = calls.length
  name?_eq : ∀ (j : Nat) (r : Registrar), s.registrars[j]? = some r → r.name? s.handles = calls[j]?

/-- Names stay as they are. -/
theorem name?_eq_of_leadsTo {handles handles' : List Handle}
    (h : ∀ (a : Nat) (x : Handle), handles[a]? = some x → ∃ y, handles'[a]? = some y ∧ LeadsTo x y)
    {r : Registrar} {name : String} (hr : r.name? handles = some name) :
    r.name? handles' = some name := by
  cases r with
  | started | locked | admitted | denied | refused => exact hr
  | added a | registered a =>
    obtain ⟨x, hx, rfl⟩ := Option.map_eq_some_iff.mp hr
    obtain ⟨y, hy, hxy⟩ := h a x hx
    simp [Registrar.name?, hy, hxy.1]

namespace Named

variable {calls : List String} {s t : System}

theorem exists_name (hs : s.Named calls) {j : Nat} {r : Registrar}
    (hr : s.registrars[j]? = some r) : ∃ name, r.name? s.handles = some name := by
  have hlt : j < calls.length := hs.length_eq ▸ (List.getElem?_eq_some_iff.mp hr).1
  exact ⟨calls[j], (hs.name?_eq j r hr).trans (List.getElem?_eq_getElem hlt)⟩

theorem of_leadsTo (hs : s.Named calls)
    (hhandles : ∀ (a : Nat) (x : Handle), s.handles[a]? = some x →
      ∃ y, t.handles[a]? = some y ∧ LeadsTo x y)
    (hregistrars : t.registrars = s.registrars) : t.Named calls := by
  refine ⟨by rw [hregistrars, hs.length_eq], ?_⟩
  intro j r hr
  rw [hregistrars] at hr
  obtain ⟨name, hname⟩ := hs.exists_name hr
  rw [name?_eq_of_leadsTo hhandles hname, ← hs.name?_eq j r hr, hname]

/-- A registrar goes on and keeps its name. -/
theorem of_moves (hs : s.Named calls)
    (hhandles : ∀ (a : Nat) (x : Handle), s.handles[a]? = some x →
      ∃ y, t.handles[a]? = some y ∧ LeadsTo x y)
    {i : Nat} {r q : Registrar} (here : s.registrars[i]? = some r)
    (hregistrars : t.registrars = s.registrars.set i q)
    (hname : q.name? t.handles = r.name? s.handles) : t.Named calls := by
  refine ⟨by rw [hregistrars, List.length_set, hs.length_eq], ?_⟩
  intro j x hx
  rw [hregistrars, getElem?_set_of_some here] at hx
  split at hx
  · next hj =>
    obtain rfl := Option.some.inj hx
    rw [hname, hj, hs.name?_eq i r here]
  · obtain ⟨name, hname⟩ := hs.exists_name hx
    rw [name?_eq_of_leadsTo hhandles hname, ← hs.name?_eq j x hx, hname]

theorem step (hs : s.Named calls) {e : Event} (hstep : Step s e t) :
    t.Named (calls ++ e.name?.toList) := by
  have hhandles := fun (a : Nat) (x : Handle) => leadsTo_step hstep (a := a) (x := x)
  cases hstep with
  | registers name =>
    refine ⟨by simp [hs.length_eq, Event.name?], ?_⟩
    intro j r hr
    simp only [getElem?_concat] at hr
    simp only [Event.name?, Option.toList_some, getElem?_concat, ← hs.length_eq]
    split at hr
    · next hj =>
      obtain rfl := Option.some.inj hr
      rw [if_pos hj]
      rfl
    · next hj =>
      rw [if_neg hj]
      exact hs.name?_eq j r hr
  | requests | notifies | comesLate | comesFirst | locksList | copies | releases | signals
  | waits =>
    rw [Event.name?, Option.toList_none, List.append_nil]
    exact hs.of_leadsTo hhandles rfl
  | locks here _ | admits here _ | denies here _ | returns here | refuses here =>
    rw [Event.name?, Option.toList_none, List.append_nil]
    exact hs.of_moves hhandles here rfl rfl
  | adds here =>
    rw [Event.name?, Option.toList_none, List.append_nil]
    refine hs.of_moves hhandles here rfl ?_
    simp [Registrar.name?, add, atRegistrar]

theorem run (hs : s.Named calls) {es : List Event} (h : s.run es = some t) :
    t.Named (calls ++ names es) := by
  induction es generalizing calls s with
  | nil =>
    obtain rfl := Option.some.inj h
    simpa [names] using hs
  | cons e es ih =>
    cases hu : s.step e with
    | none => simp [System.run, hu] at h
    | some u =>
      rw [System.run, hu, Option.bind_some] at h
      have hnext := ih (hs.step (step_of_eq_some hu)) h
      have hnames : names (e :: es) = e.name?.toList ++ names es := by
        cases hname : e.name? <;> simp [names, hname]
      rwa [hnames, ← List.append_assoc]

end Named

theorem length_requesters_run {s t : System} {es : List Event} (h : s.run es = some t) :
    t.requesters.length = s.requesters.length + es.count .request := by
  induction es generalizing s with
  | nil =>
    obtain rfl := Option.some.inj h
    rfl
  | cons e es ih =>
    cases hu : s.step e with
    | none => simp [run, hu] at h
    | some u =>
      rw [run, hu, Option.bind_some] at h
      rw [ih h, List.count_cons]
      cases step_of_eq_some hu with
      | requests =>
        rw [List.length_append, List.length_singleton]
        simp only [beq_self_eq_true, if_true]
        omega
      | registers | notifies | locks | admits | denies | adds | returns | refuses => rfl
      | comesLate | comesFirst | locksList | copies | releases | signals | waits =>
        simp [atRequester, release, signal]

end System
end MailDispatch.Shutdown.Registration
