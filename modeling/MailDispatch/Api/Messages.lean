import MailDispatch.Api.Error
import MailDispatch.Api.Handling
import MailDispatch.Api.Routes
import MailDispatch.Mailing.Records
import MailDispatch.Service.Entries
import MailDispatch.Service.Purge
import MailDispatch.Service.Sending

/-! # The messages interface

Entries are created, removed and sent, each in a transaction. Before a mailing is
sent its stale entries are purged in a transaction of their own, so that the purge
stays even if the sending fails.
-/
namespace MailDispatch.Api
open Text Json Http Mailing Service Work Time

/-! ## Bodies of requests

A body is read if its type says that it is a document and if it is not too long. What
follows the first value in it is ignored.
-/

def bodyLimit : Nat := 2097152

/-- What was wrong with a body, for the log. -/
def bodyDetail (p : Json.Problem) (body : Octets) : String :=
  match p.category with
  | .data =>
    "Failed to deserialize the JSON body into the target type: " ++ p.text body
  | .malformed | .ended => "Failed to parse the request body as JSON: " ++ p.text body

def readBody {α : Type} (record : Record α) (r : Request) : Except Error α :=
  if !r.hasDocument then
    .error (.malformed "Expected request with \x60Content-Type: application/json\x60")
  else if bodyLimit < r.body.length then
    .error (.malformed "Failed to buffer the request body: length limit exceeded")
  else
    match record.read r.body with
    | .ok a => .ok a
    | .error p => .error (.malformed (bodyDetail p r.body))

/-! ## Handlers -/

/-- What the handlers need: where work runs, how mail is given away, how old an entry may
become and what time it is. -/
structure App (σ : Type) where
  backend : Backend σ
  emailer : Emailer
  threshold : Time.Span
  now : Timestamp

inductive Endpoint where
  | health
  | create
  | send
  | remove
  deriving DecidableEq, Repr

def messageRoutes : List (Route Endpoint) :=
  [⟨[.text "health"], "GET", .health⟩,
    ⟨[.text "api", .text "messages"], "POST", .create⟩,
    ⟨[.text "api", .text "messages", .text "send"], "POST", .send⟩,
    ⟨[.text "api", .text "messages", .hole "id"], "DELETE", .remove⟩]

def ofEnded {α : Type} : Ended Failure α → Outcome Error α
  | .value a => .value a
  | .failed f => .error (.ofFailure f)
  | .crashed c => .crash c
  | .notBegun p => .error (.notBegun p)
  | .notCommitted p => .error (.notCommitted p)

def purgedFirst (m : MailingId) (count : Nat) : Log.Event :=
  { level := .info, part := .messages, message := "purged stale entries before sending"
    fields := [("purged", .whole count), ("mailing_id", .text m.text)] }

def mailingSent (m : MailingId) (count : Nat) : Log.Event :=
  { level := .info, part := .messages, message := "mailing sent"
    fields := [("sent", .whole count), ("mailing_id", .text m.text)] }

def countBody (key : String) (n : Int) : Response :=
  .document 200 (writtenObject [writtenMember key (Numeral.ofInt n)])

namespace App

variable {σ : Type} (app : App σ)

def within {α : Type} (o : Log.Operation) (w : Work Failure α) (s : σ) : Outcome Error α × σ :=
  let (ended, s) := Transaction.within app.backend (some o) w s
  (ofEnded ended, s)

def create (r : Request) (o : Log.Operation) (s : σ) : Outcome Error Response × σ :=
  match readBody createRecord r with
  | .error e => (.error e, s)
  | .ok draft =>
    match app.within o (Service.create draft) s with
    | (.value e, s) => (.value (countBody "id" e.id.val), s)
    | (.error e, s) => (.error e, s)
    | (.crash c, s) => (.crash c, s)

def remove (segment : String) (o : Log.Operation) (s : σ) : Outcome Error Response × σ :=
  match Id.parse .mailingEntry segment with
  | .error r => (.error (.rejected r), s)
  | .ok id =>
    match app.within o (Service.remove id) s with
    | (.value _, s) => (.value (.empty 200), s)
    | (.error e, s) => (.error e, s)
    | (.crash c, s) => (.crash c, s)

def sendPurged (m : MailingId) (o : Log.Operation) (s : σ) : Outcome Error Response × σ :=
  match app.within o (Service.sendMailing app.emailer m) s with
  | (.value n, s) =>
    (.value (countBody "sent" n), app.backend.log ⟨mailingSent m n, some o⟩ s)
  | (.error e, s) => (.error e, s)
  | (.crash c, s) => (.crash c, s)

def send (r : Request) (o : Log.Operation) (s : σ) : Outcome Error Response × σ :=
  match readBody sendRecord r with
  | .error e => (.error e, s)
  | .ok request =>
    match request.target with
    | .error rejection => (.error (.rejected rejection), s)
    | .ok m =>
      match app.within o (Service.purgeMailing m app.now app.threshold) s with
      | (.value n, s) =>
        let s := if 0 < n then app.backend.log ⟨purgedFirst m n, some o⟩ s else s
        app.sendPurged m o s
      | (.error e, s) => (.error e, s)
      | (.crash c, s) => (.crash c, s)

def handler : Handler σ := fun r o s =>
  match route messageRoutes r with
  | .found .health _ => (⟨.value (.empty 200), o⟩, s)
  | .found .create _ =>
    let o := o.named "create mailing entry"
    let (result, s) := app.create r o s
    (⟨result, o⟩, s)
  | .found .send _ =>
    let o := o.named "send mailing entries with mailing ID"
    let (result, s) := app.send r o s
    (⟨result, o⟩, s)
  | .found .remove segments =>
    let o := o.named "delete mailing entry with ID"
    let (result, s) := app.remove (segments.headD "") o s
    (⟨result, o⟩, s)
  | other => (⟨.value (other.refusal?.getD (.empty 404)), o⟩, s)

def respond (id : String) (r : Request) (s : σ) : Response × σ :=
  handle app.backend.log app.handler id r s

end App
end MailDispatch.Api
