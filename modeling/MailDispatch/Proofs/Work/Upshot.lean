import MailDispatch.Proofs.Work.Atomic

/-! # What becomes of a transaction

A transaction around work that ensures something leaves the tables of the work if it ends
with a value, and those that were committed before otherwise. The mail of the work is out
either way.
-/
namespace MailDispatch
open Store Work Mailing

variable {σ ε α : Type}

/-- The scene after a transaction that was given up, with the mail that is out by then. -/
def Scene.givenUp (scene : Scene) (out : List Mail) : Scene :=
  ⟨⟨scene.store.committed, none, scene.store.next + 1⟩, out⟩

namespace Transaction

inductive Upshot (Q : Post ε α) (scene : Scene) : Ended ε α → Scene → Prop where
  | notBegun (p : Problem) : Upshot Q scene (.notBegun p) scene
  | committed {a : α} {t : Tables} {out : List Mail} (h : Q (.value a) t out) :
    Upshot Q scene (.value a) ⟨⟨t, none, scene.store.next + 1⟩, out⟩
  | notCommitted (p : Problem) {a : α} {t : Tables} {out : List Mail} (h : Q (.value a) t out) :
    Upshot Q scene (.notCommitted p) (scene.givenUp out)
  | failed {e : ε} {t : Tables} {out : List Mail} (h : Q (.error e) t out) :
    Upshot Q scene (.failed e) (scene.givenUp out)
  | crashed {x : Crash} {t : Tables} {out : List Mail} (h : Q (.crash x) t out) :
    Upshot Q scene (.crashed x) (scene.givenUp out)

theorem upshot_within {b : Backend σ} {scene : σ → Scene} (hb : b.Faithful scene)
    (operation : Option Log.Operation) {w : Work ε α} {Q : Post ε α} {s : σ}
    (h : w.Ensures Q (scene s).store.committed (scene s).outbox) :
    Upshot Q (scene s) (within b operation w s).1 (scene (within b operation w s).2) := by
  have hcourse := course_within hb operation w s
  generalize (within b operation w s).1 = ended at hcourse ⊢
  generalize scene (within b operation w s).2 = scene' at hcourse ⊢
  cases hcourse with
  | notBegun p => exact .notBegun p
  | committed ran => exact .committed (ran.ensured Q h)
  | notCommitted p ran => exact .notCommitted p (ran.ensured Q h)
  | failed ran => exact .failed (ran.ensured Q h)
  | crashed ran => exact .crashed (ran.ensured Q h)

namespace Upshot

variable {Q : Post ε α} {scene scene' : Scene} {ended : Ended ε α}

/-- Only a value is committed. -/
theorem committed_eq (h : Upshot Q scene ended scene') (hvalue : ∀ a, ended ≠ .value a) :
    scene'.store.committed = scene.store.committed := by
  cases h with
  | committed h => exact absurd rfl (hvalue _)
  | notBegun | notCommitted | failed | crashed => rfl

theorem outbox_eq (h : Upshot Q scene ended scene') (hQ : ∀ o t out, Q o t out → out = scene.outbox) :
    scene'.outbox = scene.outbox := by
  cases h with
  | notBegun p => rfl
  | committed h | notCommitted p h | failed h | crashed h => exact hQ _ _ _ h

end Upshot

end Transaction
end MailDispatch
