import MailDispatch.Work.Transaction
import MailDispatch.Mailing.Draft

/-! # Rehearsals

A store in memory on which every call can be made to fail. It keeps what was asked
of it: the calls, the mail and the log. Faults are chosen by the method and by the
number of its call.
-/
namespace MailDispatch
open Store Work Mailing

namespace Rehearsal

inductive Effect where
  | problem (p : Store.Problem)
  | refusal (message : String)
  | crash (c : Crash)
  | nothing
  deriving DecidableEq, Repr

/-- A fault of one method, at its call with the given number or, with number zero, at every
call. A delivery can be chosen by its address too. -/
structure Fault where
  method : Method
  number : Nat
  recipient : Option String := none
  effect : Effect
  deriving DecidableEq, Repr

structure Flags where
  failBegin : Bool := false
  failCommit : Bool := false
  failRollback : Bool := false
  deriving DecidableEq, Repr

structure Counters where
  begun : Nat := 0
  commits : Nat := 0
  rollbacks : Nat := 0
  deriving DecidableEq, Repr

def Fault.hits (f : Fault) (m : Method) (number : Nat) (recipient : Option String) : Bool :=
  f.method == m && (f.number == 0 || f.number == number) &&
    (f.recipient.isNone || f.recipient == recipient)

def effectOf (fs : List Fault) (m : Method) (number : Nat) (recipient : Option String) : Effect :=
  match fs.find? fun f => f.hits m number recipient with
  | some f => f.effect
  | none => .nothing

end Rehearsal

/-- The state of a rehearsal. The methods used count from the last change of the faults. -/
structure Rehearsal where
  store : Locked := .empty
  faults : List Rehearsal.Fault := []
  used : List Method := []
  flags : Rehearsal.Flags := {}
  counters : Rehearsal.Counters := {}
  calls : List Call := []
  outbox : List Mail := []
  log : List Log.Record := []

namespace Rehearsal

def beginProblem : Store.Problem := .failed "begin" "too many connections"
def commitProblem : Store.Problem := .failed "commit" "connection reset"
def rollbackProblem : Store.Problem := .failed "rollback" "connection reset"

/-- Whether opening a transaction would have to wait for another one. -/
def waits (r : Rehearsal) : Bool := !r.flags.failBegin && r.store.opened.isSome

def begin (r : Rehearsal) : Except Store.Problem Token × Rehearsal :=
  if r.flags.failBegin then (.error beginProblem, r)
  else
    match r.store.begin? with
    | some (token, store) =>
      (.ok token, { r with store, counters.begun := r.counters.begun + 1 })
    | none => (.error (.failed "begin" "another transaction is open"), r)

def commit (token : Token) (r : Rehearsal) : Except Store.Problem Unit × Rehearsal :=
  let counters := { r.counters with commits := r.counters.commits + 1 }
  if r.flags.failCommit then
    (.error commitProblem, { r with counters, store := r.store.abandon token })
  else
    let (answer, store) := r.store.commit token
    (answer, { r with counters, store })

def rollback (token : Token) (r : Rehearsal) : Except Store.Problem Unit × Rehearsal :=
  let counters := { r.counters with rollbacks := r.counters.rollbacks + 1 }
  if r.flags.failRollback then
    (.error rollbackProblem, { r with counters, store := r.store.abandon token })
  else
    let (answer, store) := r.store.rollback token
    (answer, { r with counters, store })

/-- The rehearsal after one more use of a method, and the effect of the faults on it. -/
def use (r : Rehearsal) (m : Method) (recipient : Option String) : Effect × Rehearsal :=
  let used := m :: r.used
  (effectOf r.faults m (used.count m) recipient, { r with used })

def call (token : Token) (c : Call) (r : Rehearsal) :
    Outcome Store.Problem c.Answer × Rehearsal :=
  match { r with calls := r.calls ++ [c] }.use c.method none with
  | (.problem p, r) => (.error p, r)
  | (.crash x, r) => (.crash x, r)
  | (_, r) =>
    match r.store.call token c with
    | (.ok a, store) => (.value a, { r with store })
    | (.error p, store) => (.error p, { r with store })

def deliver (m : Mail) (r : Rehearsal) : Outcome String Unit × Rehearsal :=
  match r.use .deliver (some m.recipient) with
  | (.refusal e, r) => (.error e, r)
  | (.crash x, r) => (.crash x, r)
  | (_, r) => (.value (), { r with outbox := r.outbox ++ [m] })

def record (e : Log.Record) (r : Rehearsal) : Rehearsal := { r with log := r.log ++ [e] }

def backend : Backend Rehearsal := { begin, commit, rollback, call, deliver, log := record }

structure FlagChange where
  failBegin : Option Bool := none
  failCommit : Option Bool := none
  failRollback : Option Bool := none

def FlagChange.apply (c : FlagChange) (f : Flags) : Flags :=
  ⟨c.failBegin.getD f.failBegin, c.failCommit.getD f.failCommit,
    c.failRollback.getD f.failRollback⟩

/-- Sets new faults, from which the calls are counted again, and changes flags. -/
def configure (faults : Option (List Fault)) (change : FlagChange) (r : Rehearsal) : Rehearsal :=
  let r := { r with flags := change.apply r.flags }
  match faults with
  | some faults => { r with faults, used := [] }
  | none => r

/-! ## Looking at the tables -/

/-- What a look at the tables shows: the customers, and the entries before the last time. -/
def overview (t : Tables) : Tables :=
  { t with entries := t.entries.filter fun e => e.insertTime.before .latest }

/-! ## Seeds -/

/-- Stores an entry, and its customer if the email is new. -/
def plant (t : Tables) (d : Draft) : Tables :=
  let t :=
    if t.customers.any fun c => c.email == d.email then t else (t.insertCustomer d.email).2
  match t.customers.find? fun c => c.email == d.email with
  | some c => (t.insertEntry (d.entryFor c.id)).2
  | none => t

def seed (ds : List Draft) (r : Rehearsal) : Rehearsal :=
  { r with store.committed := ds.foldl plant r.store.committed }

end Rehearsal
end MailDispatch
