import MailDispatch.Proofs.Store.Steps
import MailDispatch.Rehearsal.Basic

/-! # Faithful backends

What matters of the state of a backend is the store in it and the mail that went out.
Whatever may go wrong, a faithful backend performs a call or leaves the store alone,
gives a transaction up that cannot be committed, and gives it up too where it reports
that the rollback failed.
-/
namespace MailDispatch
open Store Work Mailing

structure Scene where
  store : Locked
  outbox : List Mail

/-- An answer as the outcome of a call. -/
def Work.Outcome.ofExcept {ε α : Type} : Except ε α → Outcome ε α
  | .ok a => .value a
  | .error e => .error e

variable {σ : Type}

structure Backend.Faithful (b : Backend σ) (scene : σ → Scene) : Prop where
  begin : ∀ s,
    (∃ p s', b.begin s = (.error p, s') ∧ scene s' = scene s) ∨
      ∃ token l s', (scene s).store.begin? = some (token, l) ∧ b.begin s = (.ok token, s') ∧
        scene s' = { scene s with store := l }
  call : ∀ token c s,
    (∃ p s', b.call token c s = (.error p, s') ∧ scene s' = scene s) ∨
      (∃ x s', b.call token c s = (.crash x, s') ∧ scene s' = scene s) ∨
        ∃ s', b.call token c s = (.ofExcept ((scene s).store.call token c).1, s') ∧
          scene s' = { scene s with store := ((scene s).store.call token c).2 }
  deliver : ∀ m s,
    (∃ e s', b.deliver m s = (.error e, s') ∧ scene s' = scene s) ∨
      (∃ x s', b.deliver m s = (.crash x, s') ∧ scene s' = scene s) ∨
        ∃ s', b.deliver m s = (.value (), s') ∧
          scene s' = { scene s with outbox := (scene s).outbox ++ [m] }
  commit : ∀ token s,
    (∃ p s', b.commit token s = (.error p, s') ∧
      scene s' = { scene s with store := (scene s).store.abandon token }) ∨
        ∃ s', b.commit token s = (((scene s).store.commit token).1, s') ∧
          scene s' = { scene s with store := ((scene s).store.commit token).2 }
  rollback : ∀ token s,
    scene (b.rollback token s).2 = { scene s with store := (scene s).store.abandon token }
  log : ∀ r s, scene (b.log r s) = scene s
  crash : ∀ stage s, b.crash stage s = none

theorem Backend.Faithful.foldl_log {b : Backend σ} {scene : σ → Scene} (hb : b.Faithful scene)
    (records : List Log.Record) (s : σ) :
    scene (records.foldl (fun s r => b.log r s) s) = scene s := by
  induction records generalizing s with
  | nil => rfl
  | cons r records ih => exact (ih (b.log r s)).trans (hb.log r s)

namespace Rehearsal

def scene (r : Rehearsal) : Scene := ⟨r.store, r.outbox⟩

@[simp] theorem store_scene (r : Rehearsal) : (scene r).store = r.store := rfl

theorem faithful : backend.Faithful scene where
  begin := by
    intro r
    simp only [backend, Rehearsal.begin]
    split
    · exact Or.inl ⟨_, _, rfl, rfl⟩
    · split
      · next token l hb => exact Or.inr ⟨token, l, _, hb, rfl, rfl⟩
      · exact Or.inl ⟨_, _, rfl, rfl⟩
  call := by
    intro token c r
    simp only [backend, Rehearsal.call, use]
    cases effectOf r.faults c.method (List.count c.method (c.method :: r.used)) none with
    | problem p => exact Or.inl ⟨p, _, rfl, rfl⟩
    | crash x => exact Or.inr (Or.inl ⟨x, _, rfl, rfl⟩)
    | refusal _ | nothing =>
      refine Or.inr (Or.inr ?_)
      simp only [scene]
      rcases r.store.call token c with ⟨answer, store⟩
      cases answer <;> exact ⟨_, rfl, rfl⟩
  deliver := by
    intro m r
    simp only [backend, Rehearsal.deliver, use]
    cases effectOf r.faults .deliver (List.count .deliver (.deliver :: r.used))
        (some m.recipient) with
    | refusal e => exact Or.inl ⟨e, _, rfl, rfl⟩
    | crash x => exact Or.inr (Or.inl ⟨x, _, rfl, rfl⟩)
    | problem _ | nothing => exact Or.inr (Or.inr ⟨_, rfl, rfl⟩)
  commit := by
    intro token r
    simp only [backend, Rehearsal.commit]
    split
    · exact Or.inl ⟨_, _, rfl, rfl⟩
    · exact Or.inr ⟨_, rfl, rfl⟩
  rollback := by
    intro token r
    simp only [backend, Rehearsal.rollback]
    split <;> rfl
  log := fun _ _ => rfl
  crash := fun _ _ => rfl

end Rehearsal

end MailDispatch
