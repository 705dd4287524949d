import MailDispatch.Rehearsal.Basic
import MailDispatch.Service.Entries
import MailDispatch.Time.Written
import MailDispatch.Service.Sending
import MailDispatch.Service.Purge

/-! # Sessions

A session goes through steps on one rehearsal: it opens and finishes transactions
under names, runs tasks in them, and runs whole units of work. A transaction that
nobody can reach any more is given up.
-/
namespace MailDispatch.Rehearsal
open Store Work Mailing Service Time

/-- What a task wants to know or to change. A purge by the clock is one at the time of the
session. -/
inductive Task where
  | ask (c : Call)
  | createCustomer (email : String)
  | createEntry (d : Draft)
  | removeEntry (id : MailingEntryId)
  | sendMailing (emailer : Emailer) (m : MailingId)
  | sendEntry (emailer : Emailer) (e : Entry)
  | purge (now : Timestamp) (threshold : Time.Span)
  | purgeMailing (m : MailingId) (now : Timestamp) (threshold : Time.Span)
  | dump
  | value (written : String)
  | fail (message : String)
  | throw (c : Crash)

inductive Answer where
  | nothing
  | customer (c : Customer)
  | entry (e : Entry)
  | entries (es : List Entry)
  | count (n : Nat)
  | tables (t : Option Tables)
  | given (written : String)

inductive Trouble where
  | store (p : Store.Problem)
  | service (f : Failure)
  | business (message : String)

def callAnswer : (c : Call) → c.Answer → Answer
  | .customerById _, c | .customerByEmail _, c | .insertCustomer _, c => .customer c
  | .deleteCustomer _, _ | .deleteEntry _, _ => .nothing
  | .insertEntry _, e => .entry e
  | .entriesOfMailing _, es | .entriesBefore _, es | .entriesOfMailingBefore _ _, es
  | .entriesOfCustomer _, es | .duplicates _, es => .entries es

def serving {α : Type} (f : α → Answer) (w : Work Failure α) : Work Trouble Answer :=
  (w.mapError .service).bind fun a => .done (f a)

def Task.work (view : Option Tables) : Task → Work Trouble Answer
  | .ask c => ((Work.ask c).mapError .store).bind fun a => .done (callAnswer c a)
  | .createCustomer email => serving .customer (Service.createCustomer email)
  | .createEntry d => serving .entry (Service.create d)
  | .removeEntry id => serving (fun _ => .nothing) (Service.remove id)
  | .sendMailing emailer m => serving .count (Service.sendMailing emailer m)
  | .sendEntry emailer e => serving (fun _ => .nothing) (Service.sendEntry emailer e)
  | .purge now threshold => serving .count (Service.purge now threshold)
  | .purgeMailing m now threshold => serving .count (Service.purgeMailing m now threshold)
  | .dump => .done (.tables (view.map overview))
  | .value written => .done (.given written)
  | .fail message => .fail (.business message)
  | .throw c => .crash c

def runTask (token : Token) (t : Task) (r : Rehearsal) : Outcome Trouble Answer × Rehearsal :=
  (t.work (r.store.view? token)).run backend none token r

/-- What was asked of the doubles since the last answer. -/
structure Noted (α : Type) where
  answer : α
  calls : List Call
  outbox : List Mail

def note {α : Type} (a : α) (r : Rehearsal) : Noted α × Rehearsal :=
  (⟨a, r.calls, r.outbox⟩, { r with calls := [], outbox := [] })

/-- Runs the tasks of a unit of work. A failure ends it only where the task says so, and a
crash always does. The value is that of the last task that succeeded. -/
def runTasks (token : Token) :
    List (Task × Bool) → Answer → List (Noted (Outcome Trouble Answer)) → Rehearsal →
      Outcome Trouble Answer × List (Noted (Outcome Trouble Answer)) × Rehearsal
  | [], last, noted, r => (.value last, noted, r)
  | (t, strict) :: rest, last, noted, r =>
    match runTask token t r with
    | (.crash c, r) => (.crash c, noted, r)
    | (.value a, r) =>
      let (n, r) := note (.value a) r
      runTasks token rest a (noted ++ [n]) r
    | (.error e, r) =>
      let (n, r) := note (.error e) r
      if strict then (.error e, noted ++ [n], r)
      else runTasks token rest last (noted ++ [n]) r

inductive Step where
  | configure (faults : Option (List Fault)) (change : FlagChange)
  | begin (tx : String)
  | commit (tx : String)
  | rollback (tx : String)
  | dropTransaction (tx : String)
  | dropRepository (tx : String)
  | committed
  | counters
  | unit (tasks : List (Task × Bool)) (returning : Bool) (keepAs : Option String)
  | task (tx : String) (t : Task)

inductive Reply where
  | done
  | value (a : Answer)
  | trouble (t : Trouble)
  | crash (c : Crash)
  | wouldBlock
  | noTransaction
  | noRepository
  | was (there : Bool)
  | committed (t : Option Tables)
  | counters (c : Counters)
  | unit (steps : List (Noted (Outcome Trouble Answer))) (result : Option (Ended Trouble Answer))
      (counters : Counters)

/-- A rehearsal with the repositories and the finishing sides of transactions by name. -/
structure Session where
  rehearsal : Rehearsal
  repositories : List (String × Token) := []
  finishers : List (String × Token) := []

namespace Session

def put (name : String) (token : Token) (l : List (String × Token)) : List (String × Token) :=
  (name, token) :: l.filter fun p => p.1 != name

def drop (name : String) (l : List (String × Token)) : List (String × Token) :=
  l.filter fun p => p.1 != name

def holds (s : Session) (token : Token) : Bool :=
  (s.repositories ++ s.finishers).any fun p => p.2 == token

/-- Gives up an open transaction that has neither a repository nor a finishing side. -/
def settle (s : Session) : Session :=
  match s.rehearsal.store.opened with
  | some (token, _) =>
    if s.holds token then s
    else { s with rehearsal.store := s.rehearsal.store.abandon token }
  | none => s

def replyOf : Outcome Trouble Answer → Reply
  | .value a => .value a
  | .error t => .trouble t
  | .crash c => .crash c

/-- Uses up the finishing side of a transaction. -/
def finishing (s : Session) (tx : String)
    (act : Token → Rehearsal → Except Store.Problem Unit × Rehearsal) : Reply × Session :=
  match s.finishers.lookup tx with
  | none => (.noTransaction, s)
  | some token =>
    let (answer, r) := act token s.rehearsal
    let s := { s with rehearsal := r, finishers := drop tx s.finishers }
    match answer with
    | .ok _ => (.done, s)
    | .error p => (.trouble (.store p), s)

/-- Runs tasks as one unit of work. Without a wish for its value the value is nothing. -/
def runUnit (s : Session) (tasks : List (Task × Bool)) (returning : Bool)
    (keepAs : Option String) : Reply × Session :=
  let r := s.rehearsal
  if r.waits then (.unit [] none r.counters, s)
  else
    match r.begin with
    | (.error p, r) => (.unit [] (some (.notBegun p)) r.counters, { s with rehearsal := r })
    | (.ok token, r) =>
      let (outcome, steps, r) := runTasks token tasks .nothing [] r
      let outcome := match outcome with
        | .value a => .value (if returning then a else .nothing)
        | o => o
      let (ended, r) := Transaction.finish backend none token (outcome, r)
      let repositories := match keepAs with
        | some tx => put tx token s.repositories
        | none => s.repositories
      (.unit steps (some ended) r.counters, { s with rehearsal := r, repositories })

def act (s : Session) : Step → Reply × Session
  | .configure faults change =>
    (.done, { s with rehearsal := s.rehearsal.configure faults change })
  | .begin tx =>
    if s.rehearsal.waits then (.wouldBlock, s)
    else
      match s.rehearsal.begin with
      | (.ok token, r) =>
        (.done, { s with rehearsal := r, repositories := put tx token s.repositories,
                         finishers := put tx token s.finishers })
      | (.error p, r) => (.trouble (.store p), { s with rehearsal := r })
  | .commit tx => s.finishing tx Rehearsal.commit
  | .rollback tx => s.finishing tx Rehearsal.rollback
  | .dropTransaction tx =>
    (.was (s.finishers.lookup tx).isSome, { s with finishers := drop tx s.finishers })
  | .dropRepository tx =>
    (.was (s.repositories.lookup tx).isSome, { s with repositories := drop tx s.repositories })
  | .committed =>
    (.committed (if s.rehearsal.store.opened.isSome then none
      else some (overview s.rehearsal.store.committed)), s)
  | .counters => (.counters s.rehearsal.counters, s)
  | .unit tasks returning keepAs => s.runUnit tasks returning keepAs
  | .task tx t =>
    match s.repositories.lookup tx with
    | none => (.noRepository, s)
    | some token =>
      let (outcome, r) := runTask token t s.rehearsal
      (replyOf outcome, { s with rehearsal := r })

def step (s : Session) (x : Step) : Noted Reply × Session :=
  let (reply, s) := s.act x
  let (noted, r) := note reply s.rehearsal
  (noted, { s with rehearsal := r }.settle)

def run (s : Session) : List Step → List (Noted Reply) × Session
  | [] => ([], s)
  | x :: xs =>
    let (n, s) := s.step x
    let (ns, s) := s.run xs
    (n :: ns, s)

end Session

/-! ## Journals -/

def written (t : Timestamp) : String := String.ofList t.written

def withTime (shown : Bool) (words : List String) (t : Timestamp) : List String :=
  if shown then words ++ [written t] else words

/-- A call as one line of a journal. The time of a query by age can be left out. -/
def noteOf (timeShown : Bool) (c : Call) : String :=
  " ".intercalate <|
    match c with
    | .customerById id => ["find_customer_by_id", id.text]
    | .customerByEmail email => ["find_customer_by_email", email]
    | .insertCustomer email => ["insert_customer", email]
    | .deleteCustomer id => ["delete_customer_by_id", id.text]
    | .entriesOfMailing m => ["find_mailing_entries_by_mailing_id", m.text]
    | .entriesBefore t => withTime timeShown ["find_mailing_entries_older_than"] t
    | .entriesOfMailingBefore m t =>
      withTime timeShown ["find_mailing_entries_by_mailing_id_older_than", m.text] t
    | .entriesOfCustomer c => ["find_mailing_entries_by_customer_id", c.text]
    | .duplicates e => ["find_duplicate_mailing_entries", e.customer.text]
    | .insertEntry e => ["insert_mailing_entry", e.customer.text]
    | .deleteEntry id => ["delete_mailing_entry_by_id", id.text]

end MailDispatch.Rehearsal
