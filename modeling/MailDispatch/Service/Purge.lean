import MailDispatch.Service.Entries

/-! # Purging stale entries

Entries that were inserted before the cutoff are removed, and then the customers
whom that left without any entry.
-/
namespace MailDispatch.Service
open Mailing Work Time

/-- Inserts an identifier into an ascending list, unless it is there. -/
def insertAscending (id : CustomerId) : List CustomerId → List CustomerId
  | [] => [id]
  | a :: as =>
    if id.val < a.val then id :: a :: as
    else if id = a then a :: as
    else a :: insertAscending id as

/-- The customers of entries, each once, in ascending order. -/
def customersOf (entries : List Entry) : List CustomerId :=
  entries.foldl (fun acc e => insertAscending e.customer acc) []

def purgedEvent (count : Nat) : Log.Event :=
  { level := .info, part := .purge, message := "removed stale mailing entries"
    fields := [("count", .whole count)] }

def removingCustomer (id : CustomerId) : Log.Event :=
  { level := .info, part := .purge, message := "deleting customer without mailing entries"
    fields := [("customer_id", .text id.text)] }

def removeIfUnused (id : CustomerId) : Work Failure Unit := do
  let remaining ← asking ("error listing mailing entries of customer " ++ id.text)
    (.entriesOfCustomer id)
  match remaining with
  | _ :: _ => return ()
  | [] =>
    report (removingCustomer id)
    asking ("error deleting customer " ++ id.text) (.deleteCustomer id)

def removeStale (e : Entry) : Work Failure Unit :=
  asking ("error deleting stale mailing entry " ++ e.id.text) (.deleteEntry e.id)

def removeAll (entries : List Entry) : Work Failure Nat :=
  match entries with
  | [] => done 0
  | _ :: _ => do
    each removeStale entries
    report (purgedEvent entries.length)
    each removeIfUnused (customersOf entries)
    return entries.length

/-- Removes every stale entry. Gives their number. -/
def purge (now : Timestamp) (threshold : Span) : Work Failure Nat := do
  let entries ← asking "error listing stale mailing entries"
    (.entriesBefore (Timestamp.cutoff now threshold))
  removeAll entries

def purgeMailing (m : MailingId) (now : Timestamp) (threshold : Span) : Work Failure Nat := do
  let entries ← asking ("error listing stale mailing entries of mailing " ++ m.text)
    (.entriesOfMailingBefore m (Timestamp.cutoff now threshold))
  removeAll entries

end MailDispatch.Service
