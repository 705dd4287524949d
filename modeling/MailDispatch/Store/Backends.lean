import MailDispatch.Work.Backend

/-! # The stores of the program

Either the store in memory with a log beside it, which delivers no mail, or a database that cannot
be reached.
-/
namespace MailDispatch.Store
open Work

structure Memory where
  store : Locked := .empty
  log : List Log.Record := []

namespace Memory

def begin (m : Memory) : Except Problem Token × Memory :=
  match m.store.begin? with
  | some (token, store) => (.ok token, { m with store })
  | none => (.error (.failed "begin" "another transaction is open"), m)

def commit (token : Token) (m : Memory) : Except Problem Unit × Memory :=
  let (answer, store) := m.store.commit token
  (answer, { m with store })

def rollback (token : Token) (m : Memory) : Except Problem Unit × Memory :=
  let (answer, store) := m.store.rollback token
  (answer, { m with store })

def call (token : Token) (c : Call) (m : Memory) : Outcome Problem c.Answer × Memory :=
  match m.store.call token c with
  | (.ok a, store) => (.value a, { m with store })
  | (.error p, store) => (.error p, { m with store })

def backend : Backend Memory where
  begin := begin
  commit := commit
  rollback := rollback
  call := call
  deliver _ m := (.error "no carrier", m)
  log r m := { m with log := m.log ++ [r] }

end Memory

/-! ## A database that cannot be reached

It cannot be connected, no transaction can be opened, and its tables cannot be brought up to date.
-/

def noConnection : String := "no connection to the database"

def connectProblem : Problem := .failed "connect to postgres" noConnection
def beginProblem : Problem := .failed "begin transaction" noConnection
def migrateProblem : Problem := .failed "run migrations" noConnection

def unreachable {σ : Type} (log : Log.Record → σ → σ) : Backend σ where
  begin s := (.error beginProblem, s)
  commit _ s := (.error .closed, s)
  rollback _ s := (.error .closed, s)
  call _ _ s := (.error .closed, s)
  deliver _ s := (.error noConnection, s)
  log := log

end MailDispatch.Store
