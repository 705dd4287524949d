import MailDispatch.Store.Locked
import MailDispatch.Store.Sound

/-! # Histories of a store

Any number of users open transactions, call the store and finish what they opened, in
any order. A history is the list of what they do; every step of it has a reply.
-/
namespace MailDispatch.Store

inductive Action where
  | begin
  | call (token : Token) (c : Call)
  | commit (token : Token)
  | rollback (token : Token)
  deriving DecidableEq

inductive Reply where
  /-- Another transaction is open, so that this one has to wait. -/
  | waits
  | opened (token : Token)
  | answered (c : Call) (answer : Answered c)
  | finished (answer : Except Problem Unit)

namespace Locked

def act (s : Locked) : Action → Reply × Locked
  | .begin =>
    match s.begin? with
    | some (token, s) => (.opened token, s)
    | none => (.waits, s)
  | .call token c =>
    let (answer, s) := s.call token c
    (.answered c answer, s)
  | .commit token =>
    let (answer, s) := s.commit token
    (.finished answer, s)
  | .rollback token =>
    let (answer, s) := s.rollback token
    (.finished answer, s)

def replay (s : Locked) : List Action → List Reply × Locked
  | [] => ([], s)
  | a :: as =>
    let (r, s) := s.act a
    let (rs, s) := s.replay as
    (r :: rs, s)

theorem replay_keeps {P : Locked → Prop} (keep : ∀ s a, P s → P (s.act a).2) {s : Locked}
    (hs : P s) (as : List Action) : P (s.replay as).2 := by
  induction as generalizing s with
  | nil => exact hs
  | cons a as ih => exact ih (keep s a hs)

structure Sound (s : Locked) : Prop where
  committed : s.committed.Sound
  working : ∀ token t, s.opened = some (token, t) → t.Sound

theorem Sound.empty : Sound Locked.empty := ⟨Tables.Sound.empty, fun _ _ h => by cases h⟩

theorem Sound.of_view? {s : Locked} (h : s.Sound) {token : Token} {t : Tables}
    (hv : s.view? token = some t) : t.Sound := by
  unfold view? at hv
  split at hv
  · next u working ho =>
    split at hv
    · obtain rfl := Option.some.inj hv
      exact h.working u _ ho
    · cases hv
  · cases hv

/-- Nothing that users do makes a sound store unsound. -/
theorem Sound.act {s : Locked} (h : s.Sound) (a : Action) : (s.act a).2.Sound := by
  cases a with
  | begin =>
    simp only [Locked.act]
    cases hb : s.begin? with
    | none => exact h
    | some p =>
      obtain ⟨token, s'⟩ := p
      unfold begin? at hb
      split at hb
      · cases hb
      · obtain ⟨rfl, rfl⟩ := by simpa using hb
        refine ⟨h.committed, ?_⟩
        rintro u t ⟨⟩
        exact h.committed
  | call token c =>
    simp only [Locked.act, call]
    cases hv : s.view? token with
    | none => exact h
    | some t =>
      refine ⟨h.committed, ?_⟩
      rintro u w ⟨⟩
      exact (h.of_view? hv).perform c
  | commit token =>
    simp only [Locked.act, commit]
    cases hv : s.view? token with
    | none => exact h
    | some t => exact ⟨h.of_view? hv, fun _ _ ho => by cases ho⟩
  | rollback token =>
    simp only [Locked.act, rollback]
    cases hv : s.view? token with
    | none => exact h
    | some t => exact ⟨h.committed, fun _ _ ho => by cases ho⟩

theorem sound_replay_empty (as : List Action) : (empty.replay as).2.Sound :=
  replay_keeps (fun _ a h => h.act a) Sound.empty as

end Locked
end MailDispatch.Store
