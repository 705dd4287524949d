import MailDispatch.Mailing.Draft
import MailDispatch.Work.Basic

/-! # Creating and removing entries

A draft becomes an entry of the customer with its address, who is created if there
is none yet. The same entry is never created twice. An entry that is to be removed must exist.
-/
namespace MailDispatch.Service
open Mailing Work

/-! ## Failures

Either a rejection, which is meant for the client, or a failure inside, with the
step in which it happened.
-/

inductive Failure where
  | rejected (r : Rejection)
  | store (step : String) (cause : Store.Problem)
  | delivery (step : String) (message : String)
  deriving DecidableEq, Repr

def deliveryText (message : String) : String := "email delivery failed: " ++ message

def Failure.text : Failure → String
  | .rejected r => r.text
  | .store step cause => step ++ ": " ++ cause.text
  | .delivery step message => step ++ ": " ++ deliveryText message

/-! ## Creation -/

def customerCreated (c : Customer) : Log.Event :=
  { level := .info, part := .customers, message := "created customer"
    fields := [("customer_id", .text c.id.text)] }

def entryCreated (e : Entry) : Log.Event :=
  { level := .info, part := .creation, message := "created mailing entry"
    fields := [("mailing_entry_id", .text e.id.text)] }

/-- A call whose problem is a failure of the given step. -/
def asking (step : String) (c : Store.Call) : Work Failure c.Answer :=
  (ask c).mapError (Failure.store step)

/-- Stores a customer, whose email must not be taken. -/
def createCustomer (email : String) : Work Failure Customer :=
  call (.customerByEmail email) fun
    | .ok _ => fail (.rejected (.badInput "customer with this email already exists"))
    | .error p =>
      if p.isNoRow then do
        let c ← asking "error creating customer" (.insertCustomer email)
        report (customerCreated c)
        return c
      else fail (.store "error checking if customer with an email already exists" p)

def customerFor (email : String) : Work Failure Customer :=
  call (.customerByEmail email) fun
    | .ok c => done c
    | .error p =>
      if p.isNoRow then createCustomer email
      else fail (.store "error finding customer by email" p)

def refuseDuplicate (e : NewEntry) : Work Failure Unit := do
  let found ← asking "error checking if mailing entry already exists" (.duplicates e)
  match found with
  | [] => return ()
  | _ :: _ => fail (.rejected (.badInput "this mailing entry already exists"))

def insert (e : NewEntry) : Work Failure Entry := do
  let e ← asking "error creating mailing entry" (.insertEntry e)
  report (entryCreated e)
  return e

def create (d : Draft) : Work Failure Entry := do
  ofExcept (d.check.mapError Failure.rejected)
  let c ← customerFor d.email
  let e := d.entryFor c.id
  refuseDuplicate e
  insert e

/-! ## Removal -/

def removing (id : MailingEntryId) : Log.Event :=
  { level := .info, part := .removal, message := "deleting mailing entry"
    fields := [("mailing_entry_id", .text id.text)] }

def remove (id : MailingEntryId) : Work Failure Unit := do
  report (removing id)
  call (.deleteEntry id) fun
    | .ok _ => done ()
    | .error p =>
      if p.isNoRow then
        fail (.rejected (.notFound ("mailing entry with ID " ++ id.text ++ " doesn't exist")))
      else fail (.store ("error deleting mailing entry " ++ id.text) p)

end MailDispatch.Service
