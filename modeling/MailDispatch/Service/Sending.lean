import MailDispatch.Service.Entries

/-! # Sending a mailing

Every entry of a mailing is delivered to its customer and then removed. The first
failure ends it; whoever runs it takes the removals back.
-/
namespace MailDispatch.Service
open Mailing Work

abbrev Emailer : Type := Mail → Work String Unit

def carrier : Emailer := fun m =>
  deliver m fun
    | .ok _ => done ()
    | .error e => fail e

def logOnly : Emailer := fun m =>
  report
    { level := .info, part := .delivery, message := "logging emailer: sending email"
      fields := [("to", .text m.recipient), ("title", .text m.title), ("content", .text m.content)] }

def removingSent (e : Entry) : Log.Event :=
  { level := .info, part := .sending, message := "deleting sent mailing entry"
    fields := [("mailing_entry_id", .text e.id.text)] }

def sendEntry (emailer : Emailer) (e : Entry) : Work Failure Unit := do
  let c ← asking
    ("error finding customer " ++ e.customer.text ++ " for mailing entry " ++ e.id.text)
    (.customerById e.customer)
  (emailer ⟨c.email, e.title, e.content⟩).mapError
    (Failure.delivery
      ("error sending mailing entry " ++ e.id.text ++ " to customer " ++ e.customer.text))
  report (removingSent e)
  asking ("error deleting mailing entry " ++ e.id.text) (.deleteEntry e.id)

/-- Sends every entry of a mailing, of which there must be one. Gives their number. -/
def sendMailing (emailer : Emailer) (m : MailingId) : Work Failure Nat := do
  let entries ← asking "error listing mailing entries" (.entriesOfMailing m)
  match entries with
  | [] => fail (.rejected (.notFound "no mailing entries to send"))
  | _ :: _ =>
    each (sendEntry emailer) entries
    return entries.length

end MailDispatch.Service
