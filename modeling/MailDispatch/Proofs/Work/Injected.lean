import MailDispatch.Proofs.Work.Alike
import MailDispatch.Rehearsal.Basic

/-! # Faults at any step

A store in memory on which every step can be made to fail or to crash: each call and each
delivery, but also the begin and the end of a transaction. A plan chooses what happens at a
step by all the steps before it.
-/
namespace MailDispatch
open Store Work Mailing

namespace Rehearsal

/-- The same effect, in whatever words. -/
inductive Effect.Alike : Effect → Effect → Prop where
  | problem {p q : Problem} (h : p.Alike q) : Alike (.problem p) (.problem q)
  | refusal (e f : String) : Alike (.refusal e) (.refusal f)
  | crash (c d : Crash) : Alike (.crash c) (.crash d)
  | nothing : Alike .nothing .nothing

end Rehearsal

/-- A step at which something can be injected. -/
inductive Point where
  | begin
  | commit
  | rollback
  | call (c : Call)
  | deliver (m : Mail)
  deriving DecidableEq

def Backend.Stage.point : Backend.Stage → Point
  | .begin => .begin
  | .commit _ => .commit
  | .rollback _ => .rollback

/-- What is injected into a step after the given ones, the last of which comes first. -/
abbrev Plan := List Point → Point → Rehearsal.Effect

/-- A store in memory with a plan of its faults. -/
structure Injected where
  plan : Plan
  past : List Point := []
  store : Locked := .empty
  outbox : List Mail := []
  log : List Log.Record := []

namespace Injected

def meets (s : Injected) (p : Point) : Rehearsal.Effect × Injected :=
  (s.plan s.past p, { s with past := p :: s.past })

def begin (s : Injected) : Except Problem Token × Injected :=
  match s.meets .begin with
  | (.problem p, s) => (.error p, s)
  | (_, s) =>
    match s.store.begin? with
    | some (token, store) => (.ok token, { s with store })
    | none => (.error (.failed "begin" "another transaction is open"), s)

/-- A transaction that cannot be finished is given up. -/
def finishing (p : Point) (finish : Locked → Token → Except Problem Unit × Locked) (token : Token)
    (s : Injected) : Except Problem Unit × Injected :=
  match s.meets p with
  | (.problem q, s) => (.error q, { s with store := s.store.abandon token })
  | (_, s) => ((finish s.store token).1, { s with store := (finish s.store token).2 })

def call (token : Token) (c : Call) (s : Injected) : Outcome Problem c.Answer × Injected :=
  match s.meets (.call c) with
  | (.problem p, s) => (.error p, s)
  | (.crash x, s) => (.crash x, s)
  | (_, s) =>
    match s.store.call token c with
    | (.ok a, store) => (.value a, { s with store })
    | (.error p, store) => (.error p, { s with store })

def deliver (m : Mail) (s : Injected) : Outcome String Unit × Injected :=
  match s.meets (.deliver m) with
  | (.refusal e, s) => (.error e, s)
  | (.crash x, s) => (.crash x, s)
  | (_, s) => (.value (), { s with outbox := s.outbox ++ [m] })

/-- Where a transaction crashes nobody can reach it any more. -/
def crash (stage : Backend.Stage) (s : Injected) : Option (Crash × Injected) :=
  match s.meets stage.point with
  | (.crash x, s) =>
    match stage with
    | .begin => some (x, s)
    | .commit token | .rollback token => some (x, { s with store := s.store.abandon token })
  | _ => none

def backend : Backend Injected :=
  { begin, call, deliver, crash
    commit := finishing .commit Locked.commit
    rollback := finishing .rollback Locked.rollback
    log := fun record s => { s with log := s.log ++ [record] } }

/-- The same store, mail and steps so far, and plans that differ in words only. -/
structure Alike (s t : Injected) : Prop where
  plan : ∀ past p, (s.plan past p).Alike (t.plan past p)
  past : s.past = t.past
  store : s.store = t.store
  outbox : s.outbox = t.outbox

variable {s t : Injected}

theorem Alike.meets (h : s.Alike t) (p : Point) :
    ∃ effect effect' s' t', s.meets p = (effect, s') ∧ t.meets p = (effect', t') ∧
      effect.Alike effect' ∧ s'.Alike t' := by
  have heffect := h.plan s.past p
  refine ⟨_, _, _, _, rfl, rfl, ?_, h.plan, congrArg (p :: ·) h.past, h.store, h.outbox⟩
  rw [← h.past]
  exact heffect

theorem Alike.with_store (h : s.Alike t) {store store' : Locked} (hstore : store = store') :
    Alike { s with store } { t with store := store' } :=
  ⟨h.plan, h.past, hstore, h.outbox⟩

theorem agree_refl {α : Type} (answer : Except Problem α) : Agree Problem.Alike answer answer := by
  cases answer with
  | ok a => exact .ok a
  | error p => exact .error (by cases p <;> trivial)

theorem alike_begin (h : s.Alike t) : Both (Agree Problem.Alike) Alike s.begin t.begin := by
  have hopening : ∀ {s t : Injected}, s.Alike t → Both (Agree Problem.Alike) Alike
      (match s.store.begin? with
        | some (token, store) => (.ok token, { s with store })
        | none => (.error (.failed "begin" "another transaction is open"), s))
      (match t.store.begin? with
        | some (token, store) => (.ok token, { t with store })
        | none => (.error (.failed "begin" "another transaction is open"), t)) := by
    intro s t h
    rw [← h.store]
    cases s.store.begin? with
    | some opened => exact ⟨.ok opened.1, h.with_store rfl⟩
    | none => exact ⟨agree_refl _, h⟩
  obtain ⟨effect, effect', s', t', hs, ht, heffect, hst⟩ := h.meets .begin
  simp only [begin, hs, ht]
  cases heffect with
  | problem hpq => exact ⟨.error hpq, hst⟩
  | refusal | crash | nothing => exact hopening hst

theorem alike_finishing (p : Point) (finish : Locked → Token → Except Problem Unit × Locked)
    (token : Token) (h : s.Alike t) :
    Both (Agree Problem.Alike) Alike (finishing p finish token s) (finishing p finish token t) := by
  obtain ⟨effect, effect', s', t', hs, ht, heffect, hst⟩ := h.meets p
  have hanswer : Agree Problem.Alike (finish s'.store token).1 (finish t'.store token).1 := by
    rw [hst.store]
    exact agree_refl _
  simp only [finishing, hs, ht]
  cases heffect with
  | problem hpq => exact ⟨.error hpq, hst.with_store (by rw [hst.store])⟩
  | refusal | crash | nothing => exact ⟨hanswer, hst.with_store (by rw [hst.store])⟩

theorem alike_call (token : Token) (c : Call) (h : s.Alike t) :
    Both (Outcome.Alike Problem.Alike) Alike (call token c s) (call token c t) := by
  have hasking : ∀ {s t : Injected}, s.Alike t → Both (Outcome.Alike Problem.Alike) Alike
      (match s.store.call token c with
        | (.ok a, store) => (.value a, { s with store })
        | (.error p, store) => (.error p, { s with store }))
      (match t.store.call token c with
        | (.ok a, store) => (.value a, { t with store })
        | (.error p, store) => (.error p, { t with store })) := by
    intro s t h
    rw [← h.store]
    rcases s.store.call token c with ⟨answer, store⟩
    cases answer with
    | ok a => exact ⟨.value a, h.with_store rfl⟩
    | error p => exact ⟨.error (by cases p <;> trivial), h.with_store rfl⟩
  obtain ⟨effect, effect', s', t', hs, ht, heffect, hst⟩ := h.meets (.call c)
  simp only [call, hs, ht]
  cases heffect with
  | problem hpq => exact ⟨.error hpq, hst⟩
  | crash x y => exact ⟨.crash x y, hst⟩
  | refusal | nothing => exact hasking hst

theorem alike_deliver (m : Mail) (h : s.Alike t) :
    Both (Outcome.Alike anyText) Alike (deliver m s) (deliver m t) := by
  have haccepted : ∀ {s t : Injected}, s.Alike t →
      Alike { s with outbox := s.outbox ++ [m] } { t with outbox := t.outbox ++ [m] } := by
    intro s t h
    exact ⟨h.plan, h.past, h.store, congrArg (· ++ [m]) h.outbox⟩
  obtain ⟨effect, effect', s', t', hs, ht, heffect, hst⟩ := h.meets (.deliver m)
  simp only [deliver, hs, ht]
  cases heffect with
  | refusal e f => exact ⟨.error trivial, hst⟩
  | crash x y => exact ⟨.crash x y, hst⟩
  | problem | nothing => exact ⟨.value (), haccepted hst⟩

theorem alike_crash (stage : Backend.Stage) (h : s.Alike t) :
    crash stage s = none ∧ crash stage t = none ∨
      ∃ x y s' t', crash stage s = some (x, s') ∧ crash stage t = some (y, t') ∧ s'.Alike t' := by
  obtain ⟨effect, effect', s', t', hs, ht, heffect, hst⟩ := h.meets stage.point
  simp only [crash, hs, ht]
  cases heffect with
  | problem | refusal | nothing => exact .inl ⟨rfl, rfl⟩
  | crash x y =>
    cases stage with
    | begin => exact .inr ⟨x, y, s', t', rfl, rfl, hst⟩
    | commit token | rollback token =>
      exact .inr ⟨x, y, _, _, rfl, rfl, hst.with_store (by rw [hst.store])⟩

/-- Plans that differ in words only make the backend answer alike. -/
theorem alike_backend : Backend.Alike Alike backend backend where
  begin _ _ h := alike_begin h
  commit token _ _ h := alike_finishing .commit Locked.commit token h
  rollback token _ _ h := alike_finishing .rollback Locked.rollback token h
  call token c _ _ h := alike_call token c h
  deliver m _ _ h := alike_deliver m h
  log _ _ _ _ h := ⟨h.plan, h.past, h.store, h.outbox⟩
  crash stage _ _ h := alike_crash stage h

end Injected
end MailDispatch
