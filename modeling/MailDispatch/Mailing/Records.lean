import MailDispatch.Json.Written
import MailDispatch.Mailing.Draft

/-! # The records of the service

How identifiers, customers, entries and requests are read from documents and
written into them.
-/
namespace MailDispatch.Mailing
open Text Json Time

/-- A kind of value with a written form as a record: the shape, the field values and the value
that field values of the right kinds make. -/
structure Record (α : Type) where
  shape : Shape
  values : α → List Scalar
  ofValues? : List Scalar → Option α

namespace Record

variable {α : Type} (r : Record α)

/-- Values of kinds other than those of the shape make a record unreadable; the reader of the
shape gives none. -/
def decode (vs : List Scalar) : Except Problem α :=
  match r.ofValues? vs with
  | some a => .ok a
  | none => .error (.here (.data "wrong kind of value") [])

def read (s : Octets) : Except Problem α := do
  let (vs, _) ← r.shape.read s
  r.decode vs

def readEntire (s : Octets) : Except Problem α := do
  r.decode (← r.shape.readEntire s)

def written (a : α) : List Char := r.shape.written (r.values a)

end Record

def required (key : String) (kind : Kind) : Field := ⟨key, kind, none⟩

def optionalText (key : String) : Field := ⟨key, .text, some (.text "")⟩

def optionalWhole (key : String) : Field := ⟨key, .whole, some (.whole 0)⟩

def customerRecord : Record Customer where
  shape := ⟨"Customer", [required "id" .whole, required "email" .text]⟩
  values c := [.whole c.id.val, .text c.email]
  ofValues?
    | [.whole id, .text email] => some ⟨⟨id⟩, email⟩
    | _ => none

def entryRecord : Record Entry where
  shape := ⟨"MailingEntry",
    [required "id" .whole, required "customer_id" .whole, required "mailing_id" .whole,
      required "title" .text, required "content" .text, required "insert_time" .time]⟩
  values e := [.whole e.id.val, .whole e.customer.val, .whole e.mailing.val, .text e.title,
    .text e.content, .time e.insertTime]
  ofValues?
    | [.whole id, .whole customer, .whole mailing, .text title, .text content, .time t] =>
      some { id := ⟨id⟩, customer := ⟨customer⟩, mailing := ⟨mailing⟩, title, content,
             insertTime := t }
    | _ => none

/-- The body of a request to create an entry. What it leaves out is empty, apart from the
time, which it has to give. -/
def createRecord : Record Draft where
  shape := ⟨"CreateMessageRequest",
    [optionalWhole "mailing_id", optionalText "email", optionalText "title",
      optionalText "content", required "insert_time" .time]⟩
  values d := [.whole d.mailing.val, .text d.email, .text d.title, .text d.content,
    .time d.insertTime]
  ofValues?
    | [.whole mailing, .text email, .text title, .text content, .time t] =>
      some ⟨⟨mailing⟩, email, title, content, t⟩
    | _ => none

structure SendRequest where
  mailing : MailingId
  deriving DecidableEq, Repr

def sendRecord : Record SendRequest where
  shape := ⟨"SendMailingRequest", [optionalWhole "mailing_id"]⟩
  values r := [.whole r.mailing.val]
  ofValues?
    | [.whole mailing] => some ⟨⟨mailing⟩⟩
    | _ => none

/-- The mailing that is to be sent; zero stands for none. -/
def SendRequest.target (r : SendRequest) : Except Rejection MailingId :=
  if r.mailing.val = 0 then .error (Draft.rejection [.mailingMissing]) else .ok r.mailing

end MailDispatch.Mailing

namespace MailDispatch.Id
open Text

def readEntire (k : IdKind) (s : Octets) : Except Json.Problem (Id k) := do
  let (v, rest) ← Json.Kind.whole.read s
  match v with
  | .whole n => return ⟨← Json.entire (.ok (n, rest))⟩
  | _ => throw (.here (.data "wrong kind of value") [])

end MailDispatch.Id
