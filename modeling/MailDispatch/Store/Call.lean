import MailDispatch.Mailing.Entry

/-! # Calls on a store

Everything that work can ask of the store within its transaction, and what can go wrong. The type
of the answer depends on the call.
-/
namespace MailDispatch.Store
open Mailing Time

inductive Problem where
  /-- No row matched where one was wanted. -/
  | noRow (query : String)
  /-- More rows matched than were wanted. -/
  | manyRows (query : String)
  /-- The transaction is committed or rolled back already. -/
  | closed
  /-- The store itself failed. -/
  | failed (operation message : String)
  deriving DecidableEq, Repr

namespace Problem

def text : Problem → String
  | noRow q => q ++ ": no row matched the query"
  | manyRows q => q ++ ": more rows than expected matched the query"
  | closed => "transaction is already finished"
  | failed op m => op ++ ": " ++ m

def isNoRow : Problem → Bool
  | noRow _ => true
  | _ => false

end Problem

inductive Call where
  | customerById (id : CustomerId)
  | customerByEmail (email : String)
  | insertCustomer (email : String)
  | deleteCustomer (id : CustomerId)
  | entriesOfMailing (mailing : MailingId)
  | entriesBefore (time : Timestamp)
  | entriesOfMailingBefore (mailing : MailingId) (time : Timestamp)
  | entriesOfCustomer (customer : CustomerId)
  | duplicates (entry : NewEntry)
  | insertEntry (entry : NewEntry)
  | deleteEntry (id : MailingEntryId)
  deriving DecidableEq

@[reducible] def Call.Answer : Call → Type
  | .customerById _ | .customerByEmail _ | .insertCustomer _ => Customer
  | .deleteCustomer _ | .deleteEntry _ => Unit
  | .insertEntry _ => Entry
  | .entriesOfMailing _ | .entriesBefore _ | .entriesOfMailingBefore _ _ | .entriesOfCustomer _
  | .duplicates _ => List Entry

abbrev Answered (c : Call) : Type := Except Problem c.Answer

/-- The methods of a store, and the delivery of mail beside them. -/
inductive Method where
  | customerById
  | customerByEmail
  | insertCustomer
  | deleteCustomer
  | entriesOfMailing
  | entriesBefore
  | entriesOfMailingBefore
  | entriesOfCustomer
  | duplicates
  | insertEntry
  | deleteEntry
  | deliver
  deriving DecidableEq, Repr

def Call.method : Call → Method
  | .customerById _ => .customerById
  | .customerByEmail _ => .customerByEmail
  | .insertCustomer _ => .insertCustomer
  | .deleteCustomer _ => .deleteCustomer
  | .entriesOfMailing _ => .entriesOfMailing
  | .entriesBefore _ => .entriesBefore
  | .entriesOfMailingBefore _ _ => .entriesOfMailingBefore
  | .entriesOfCustomer _ => .entriesOfCustomer
  | .duplicates _ => .duplicates
  | .insertEntry _ => .insertEntry
  | .deleteEntry _ => .deleteEntry

end MailDispatch.Store
