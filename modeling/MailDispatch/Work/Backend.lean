import MailDispatch.Work.Basic
import MailDispatch.Store.Locked

/-! # Running work

A backend answers what work asks for. Its state holds the store, the mail that went
out, the log and whatever else it keeps.
-/
namespace MailDispatch
open Work

/-- The steps of a transaction itself. -/
inductive Backend.Stage where
  | begin
  | commit (token : Store.Token)
  | rollback (token : Store.Token)
  deriving DecidableEq, Repr

/-- What a unit of work runs on. A call can crash, as can a delivery. -/
structure Backend (σ : Type) where
  begin : σ → Except Store.Problem Store.Token × σ
  commit : Store.Token → σ → Except Store.Problem Unit × σ
  rollback : Store.Token → σ → Except Store.Problem Unit × σ
  call : Store.Token → (c : Store.Call) → σ → Outcome Store.Problem c.Answer × σ
  deliver : Mailing.Mail → σ → Outcome String Unit × σ
  log : Log.Record → σ → σ
  /-- Whether a step of a transaction crashes instead of giving an answer. -/
  crash : Backend.Stage → σ → Option (Crash × σ) := fun _ _ => none

namespace Work

variable {σ ε α : Type}

def run (b : Backend σ) (operation : Option Log.Operation) (token : Store.Token) :
    Work ε α → σ → Outcome ε α × σ
  | done a, s => (.value a, s)
  | fail e, s => (.error e, s)
  | crash c, s => (.crash c, s)
  | call c next, s =>
    match b.call token c s with
    | (.value a, s) => (next (.ok a)).run b operation token s
    | (.error p, s) => (next (.error p)).run b operation token s
    | (.crash x, s) => (.crash x, s)
  | deliver m next, s =>
    match b.deliver m s with
    | (.value u, s) => (next (.ok u)).run b operation token s
    | (.error e, s) => (next (.error e)).run b operation token s
    | (.crash x, s) => (.crash x, s)
  | log e next, s => next.run b operation token (b.log ⟨e, operation⟩ s)

theorem run_bind {β : Type} (b : Backend σ) (operation : Option Log.Operation)
    (token : Store.Token) (w : Work ε α) (f : α → Work ε β) (s : σ) :
    (w.bind f).run b operation token s =
      match w.run b operation token s with
      | (.value a, s) => (f a).run b operation token s
      | (.error e, s) => (.error e, s)
      | (.crash c, s) => (.crash c, s) := by
  induction w generalizing s with
  | done | fail | crash => rfl
  | call c next ih =>
    simp only [bind, run]
    split <;> first | rfl | exact ih _ _
  | deliver m next ih =>
    simp only [bind, run]
    split <;> first | rfl | exact ih _ _
  | log e next ih => simp only [bind, run]; exact ih _

end Work
end MailDispatch
