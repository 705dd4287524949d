import MailDispatch.Store.Call

/-! # Tables

The rows of a store in the order in which they were inserted, and the last
identifiers given. A customer's email is unique, and every entry belongs to a stored
customer; the calls that would break this fail and change nothing.
-/
namespace MailDispatch.Store
open Mailing Time

structure Tables where
  customers : List Customer
  entries : List Entry
  lastCustomer : Nat
  lastEntry : Nat
  deriving DecidableEq

def exactlyOne {α : Type} (query : String) : List α → Except Problem α
  | [] => .error (.noRow query)
  | [a] => .ok a
  | _ => .error (.manyRows query)

def exactlyOneAffected (query : String) : Nat → Except Problem Unit
  | 0 => .error (.noRow query)
  | 1 => .ok ()
  | _ => .error (.manyRows query)

namespace Tables

def empty : Tables := ⟨[], [], 0, 0⟩

instance : Inhabited Tables := ⟨empty⟩

def insertCustomer (t : Tables) (email : String) : Except Problem Customer × Tables :=
  if t.customers.any fun c => c.email == email then
    (.error (.failed "insert customer" "duplicate value of unique column email"), t)
  else
    let id := t.lastCustomer + 1
    let c : Customer := ⟨⟨id⟩, email⟩
    (.ok c, { t with customers := t.customers ++ [c], lastCustomer := id })

def deleteCustomer (t : Tables) (id : CustomerId) : Except Problem Unit × Tables :=
  if t.entries.any fun e => e.customer == id then
    (.error (.failed "delete customer" "customer is still referenced by mailing entries"), t)
  else
    let kept := t.customers.filter fun c => c.id != id
    (exactlyOneAffected "delete customer" (t.customers.length - kept.length),
      { t with customers := kept })

def insertEntry (t : Tables) (e : NewEntry) : Except Problem Entry × Tables :=
  if t.customers.any fun c => c.id == e.customer then
    let id := t.lastEntry + 1
    let e : Entry := { e with id := ⟨id⟩ }
    (.ok e, { t with entries := t.entries ++ [e], lastEntry := id })
  else
    (.error (.failed "insert mailing entry" "customer_id references a missing customer"), t)

def deleteEntry (t : Tables) (id : MailingEntryId) : Except Problem Unit × Tables :=
  let kept := t.entries.filter fun e => e.id != id
  (exactlyOneAffected "delete mailing entry" (t.entries.length - kept.length),
    { t with entries := kept })

def perform (t : Tables) : (c : Call) → Answered c × Tables
  | .customerById id =>
    (exactlyOne "find customer by id" (t.customers.filter fun c => c.id == id), t)
  | .customerByEmail email =>
    (exactlyOne "find customer by email" (t.customers.filter fun c => c.email == email), t)
  | .insertCustomer email => t.insertCustomer email
  | .deleteCustomer id => t.deleteCustomer id
  | .entriesOfMailing m => (.ok (t.entries.filter fun e => e.mailing == m), t)
  | .entriesBefore time => (.ok (t.entries.filter fun e => e.insertTime.before time), t)
  | .entriesOfMailingBefore m time =>
    (.ok (t.entries.filter fun e => e.mailing == m && e.insertTime.before time), t)
  | .entriesOfCustomer c => (.ok (t.entries.filter fun e => e.customer == c), t)
  | .duplicates e => (.ok (t.entries.filter fun f => f.toNewEntry == e), t)
  | .insertEntry e => t.insertEntry e
  | .deleteEntry id => t.deleteEntry id

end Tables
end MailDispatch.Store
