import MailDispatch.Store.Tables

/-! # The store in memory

At most one transaction is open at a time. It works on a copy of the tables, which
replaces them on commit. Who holds the token of a finished transaction gets nothing
but the answer that it is closed.
-/
namespace MailDispatch.Store

/-- The name of a transaction; none is given twice. -/
abbrev Token := Nat

structure Locked where
  committed : Tables
  opened : Option (Token × Tables)
  next : Token
  deriving DecidableEq

namespace Locked

def empty : Locked := ⟨.empty, none, 0⟩

instance : Inhabited Locked := ⟨empty⟩

/-- Opens a transaction; there is none while another one is open. -/
def begin? (s : Locked) : Option (Token × Locked) :=
  match s.opened with
  | some _ => none
  | none => some (s.next, { s with opened := some (s.next, s.committed), next := s.next + 1 })

/-- The tables that the holder of a token sees. -/
def view? (s : Locked) (token : Token) : Option Tables :=
  match s.opened with
  | some (t, working) => if t = token then some working else none
  | none => none

def call (s : Locked) (token : Token) (c : Call) : Answered c × Locked :=
  match s.view? token with
  | some working =>
    let (answer, working) := working.perform c
    (answer, { s with opened := some (token, working) })
  | none => (.error .closed, s)

def commit (s : Locked) (token : Token) : Except Problem Unit × Locked :=
  match s.view? token with
  | some working => (.ok (), { s with committed := working, opened := none })
  | none => (.error .closed, s)

def rollback (s : Locked) (token : Token) : Except Problem Unit × Locked :=
  match s.view? token with
  | some _ => (.ok (), { s with opened := none })
  | none => (.error .closed, s)

/-- Gives a transaction up that nobody can finish any more. -/
def abandon (s : Locked) (token : Token) : Locked := (s.rollback token).2

/-- A transaction opens on the committed tables, which it does not change. -/
theorem begin?_eq_some {s s' : Locked} {token : Token} (h : s.begin? = some (token, s')) :
    s.opened = none ∧ s'.view? token = some s.committed ∧ s'.committed = s.committed ∧
      token = s.next ∧ s'.next = s.next + 1 := by
  unfold begin? at h
  split at h
  · simp at h
  · next ho =>
    obtain ⟨rfl, rfl⟩ := by simpa using h
    exact ⟨ho, by simp [view?], rfl, rfl, rfl⟩

theorem call_of_view? {s : Locked} {token : Token} {t : Tables} (h : s.view? token = some t)
    (c : Call) :
    (s.call token c).1 = (t.perform c).1 ∧ (s.call token c).2.view? token = some (t.perform c).2 ∧
      (s.call token c).2.committed = s.committed := by
  rw [call, h]
  simp [view?]

/-- Who has no open transaction learns nothing and changes nothing. -/
theorem call_of_view?_none {s : Locked} {token : Token} (h : s.view? token = none) (c : Call) :
    s.call token c = (.error .closed, s) := by
  simp [call, h]

theorem commit_of_view? {s : Locked} {token : Token} {t : Tables} (h : s.view? token = some t) :
    s.commit token = (.ok (), { s with committed := t, opened := none }) := by
  simp [commit, h]

theorem rollback_of_view? {s : Locked} {token : Token} {t : Tables} (h : s.view? token = some t) :
    s.rollback token = (.ok (), { s with opened := none }) := by
  simp [rollback, h]

end Locked
end MailDispatch.Store
