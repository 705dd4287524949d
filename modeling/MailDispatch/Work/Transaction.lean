import MailDispatch.Work.Backend

/-! # Work within a transaction

The transaction is committed if the work ends with a value, and rolled back
otherwise. A rollback that fails is logged and changes nothing else; where a step of
the transaction crashes, that is how it ends.
-/
namespace MailDispatch
open Work

inductive Ended (ε α : Type) where
  | value (a : α)
  | failed (e : ε)
  | crashed (c : Crash)
  | notBegun (p : Store.Problem)
  | notCommitted (p : Store.Problem)
  deriving DecidableEq, Repr

namespace Transaction

variable {σ ε α : Type}

def notBegunText : String := "error creating a transaction"

def notCommittedText : String := "error committing transaction"

def crashEvent (c : Crash) : Log.Event :=
  { level := .error, part := .transactions, message := "unit of work panicked, rolling back"
    fields := [("panic", .text c.message)] }

def rollbackEvent (p : Store.Problem) : Log.Event :=
  { level := .error, part := .transactions, message := "error rolling back transaction"
    fields := [("error", .text p.text)] }

def rollback (b : Backend σ) (operation : Option Log.Operation) (token : Store.Token) (s : σ) : σ :=
  match b.rollback token s with
  | (.ok _, s) => s
  | (.error p, s) => b.log ⟨rollbackEvent p, operation⟩ s

/-- Rolls back before the given end. -/
def giveUp (b : Backend σ) (operation : Option Log.Operation) (token : Store.Token)
    (ended : Ended ε α) (s : σ) : Ended ε α × σ :=
  match b.crash (.rollback token) s with
  | some (c, s) => (.crashed c, s)
  | none => (ended, rollback b operation token s)

def finish (b : Backend σ) (operation : Option Log.Operation) (token : Store.Token) :
    Outcome ε α × σ → Ended ε α × σ
  | (.value a, s) =>
    match b.crash (.commit token) s with
    | some (c, s) => (.crashed c, s)
    | none =>
      match b.commit token s with
      | (.ok _, s) => (.value a, s)
      | (.error p, s) => (.notCommitted p, s)
  | (.error e, s) => giveUp b operation token (.failed e) s
  | (.crash c, s) => giveUp b operation token (.crashed c) (b.log ⟨crashEvent c, operation⟩ s)

/-- Runs a body in a transaction of its own, if one can be opened. -/
def around (b : Backend σ) (operation : Option Log.Operation)
    (body : Store.Token → σ → Outcome ε α × σ) (s : σ) : Ended ε α × σ :=
  match b.crash .begin s with
  | some (c, s) => (.crashed c, s)
  | none =>
    match b.begin s with
    | (.ok token, s) => finish b operation token (body token s)
    | (.error p, s) => (.notBegun p, s)

def within (b : Backend σ) (operation : Option Log.Operation) (w : Work ε α) (s : σ) :
    Ended ε α × σ :=
  around b operation (fun token => w.run b operation token) s

end Transaction
end MailDispatch
