import MailDispatch.Shutdown.Coordinator

/-! # Registration and shutdown in small steps

Registering a handle and requesting shutdown take several steps each, and the steps
of all who do so may alternate in any way. A lock guards the list of handles, but not
the flag: who registers looks at the flag while holding the lock, and who requests
shutdown sets the flag before taking the lock to copy the list.
-/
namespace MailDispatch.Shutdown.Registration

inductive Registrar where
  | started (name : String)
  | locked (name : String)
  | admitted (name : String)
  | denied (r : Refusal)
  | added (handle : Nat)
  | registered (handle : Nat)
  | refused (r : Refusal)
  deriving DecidableEq, Repr

inductive Requester where
  | started
  | late
  | first
  | locked
  | copied (handles : List Nat)
  | signalling (handles todo : List Nat)
  | waiting (handles : List Nat)
  deriving DecidableEq, Repr

inductive Holder where
  | registrar (i : Nat)
  | requester (i : Nat)
  deriving DecidableEq, Repr

structure System where
  requested : Bool := false
  holder : Option Holder := none
  handles : List Handle := []
  registrars : List Registrar := []
  requesters : List Requester := []
  deriving DecidableEq, Repr

/-- What may happen next: someone begins, goes one step on, or reports that a handle is done. -/
inductive Event where
  | register (name : String)
  | request
  | registrar (i : Nat)
  | requester (i : Nat)
  | notify (handle : Nat)
  deriving DecidableEq, Repr

namespace System

def atRegistrar (s : System) (i : Nat) (r : Registrar) : System :=
  { s with registrars := s.registrars.set i r }

def atRequester (s : System) (i : Nat) (r : Requester) : System :=
  { s with requesters := s.requesters.set i r }

def release (s : System) : System := { s with holder := none }

def take (s : System) (h : Holder) : Option System :=
  match s.holder with
  | none => some { s with holder := some h }
  | some _ => none

def signal (s : System) (handle : Nat) : System :=
  { s with handles := s.handles.modify handle fun h => { h with signalled := true } }

def notify (s : System) (handle : Nat) : System :=
  { s with handles := s.handles.modify handle fun h => { h with notified := true } }

def add (s : System) (name : String) : System := { s with handles := s.handles ++ [{ name }] }

def stepRegistrar (s : System) (i : Nat) : Option System :=
  match s.registrars[i]? with
  | some (.started name) => (s.take (.registrar i)).map fun s => s.atRegistrar i (.locked name)
  | some (.locked name) =>
    some (s.atRegistrar i (if s.requested then .denied ⟨name⟩ else .admitted name))
  | some (.admitted name) => some ((s.add name).atRegistrar i (.added s.handles.length))
  | some (.added handle) => some (s.release.atRegistrar i (.registered handle))
  | some (.denied r) => some (s.release.atRegistrar i (.refused r))
  | some (.registered _) | some (.refused _) | none => none

def stepRequester (s : System) (i : Nat) : Option System :=
  match s.requesters[i]? with
  | some .started =>
    if s.requested then some (s.atRequester i .late)
    else some ({ s with requested := true }.atRequester i .first)
  | some .first => (s.take (.requester i)).map fun s => s.atRequester i .locked
  | some .locked => some (s.atRequester i (.copied (List.range s.handles.length)))
  | some (.copied handles) => some (s.release.atRequester i (.signalling handles handles))
  | some (.signalling handles (h :: todo)) =>
    some ((s.signal h).atRequester i (.signalling handles todo))
  | some (.signalling handles []) => some (s.atRequester i (.waiting handles))
  | some .late | some (.waiting _) | none => none

def step (s : System) : Event → Option System
  | .register name => some { s with registrars := s.registrars ++ [.started name] }
  | .request => some { s with requesters := s.requesters ++ [.started] }
  | .registrar i => s.stepRegistrar i
  | .requester i => s.stepRequester i
  | .notify handle => some (s.notify handle)

def run (s : System) : List Event → Option System
  | [] => some s
  | e :: es => (s.step e).bind fun s => s.run es

theorem run_append (s : System) (es fs : List Event) :
    s.run (es ++ fs) = (s.run es).bind fun s => s.run fs := by
  induction es generalizing s with
  | nil => rfl
  | cons e es ih =>
    cases h : s.step e with
    | none => simp [run, h]
    | some t => simp [run, h, ih]

theorem run_keeps {P : System → Prop} (keep : ∀ s e t, P s → s.step e = some t → P t)
    {s t : System} {es : List Event} (hs : P s) (h : s.run es = some t) : P t := by
  induction es generalizing s with
  | nil =>
    obtain rfl : s = t := by simpa [run] using h
    exact hs
  | cons e es ih =>
    cases hu : s.step e with
    | none => simp [run, hu] at h
    | some u =>
      rw [run, hu, Option.bind_some] at h
      exact ih (keep s e u hs hu) h

end System
end MailDispatch.Shutdown.Registration
