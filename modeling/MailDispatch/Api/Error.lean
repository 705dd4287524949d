import MailDispatch.Http.Message
import MailDispatch.Json.Written
import MailDispatch.Service.Entries
import MailDispatch.Work.Transaction

/-! # Errors of the interface

Every failure of a request is one of these. The client is told the words of a
rejection and nothing of what went wrong inside.
-/
namespace MailDispatch.Api
open Text Json Http Service

inductive Error where
  | rejected (r : Rejection)
  | malformed (detail : String)
  | store (step : String) (cause : Store.Problem)
  | delivery (step message : String)
  | notBegun (p : Store.Problem)
  | notCommitted (p : Store.Problem)
  | crashed (message : String)
  deriving DecidableEq, Repr

namespace Error

def ofFailure : Failure → Error
  | .rejected r => rejected r
  | .store step cause => store step cause
  | .delivery step message => delivery step message

def status : Error → Nat
  | rejected (.badInput _) | rejected (.invalidId _) | malformed _ => 400
  | rejected .unauthorized => 401
  | rejected (.notFound _) => 404
  | store _ _ | delivery _ _ | notBegun _ | notCommitted _ | crashed _ => 500

def clientMessage : Error → String
  | rejected r => r.message
  | malformed _ => "malformed request body"
  | store _ _ | delivery _ _ | notBegun _ | notCommitted _ | crashed _ =>
    "request processing failed"

/-- The words for the log. -/
def text : Error → String
  | rejected r => r.text
  | malformed detail => "malformed request body: " ++ detail
  | store step cause => (Failure.store step cause).text
  | delivery step message => (Failure.delivery step message).text
  | notBegun _ => Transaction.notBegunText
  | notCommitted _ => Transaction.notCommittedText
  | crashed message => "request processing panicked: " ++ message

/-- The words of a problem and of what caused it. -/
def problemChain (p : Store.Problem) : List String :=
  match p with
  | .failed _ message => [p.text, message]
  | _ => [p.text]

/-- The words of the causes, from the nearest on. -/
def causes : Error → List String
  | store _ p | notBegun p | notCommitted p => problemChain p
  | delivery _ message => [deliveryText message]
  | rejected _ | malformed _ | crashed _ => []

/-- The event that reports the error; what the client has done wrong is only a warning. -/
def event (e : Error) : Log.Event :=
  if 500 ≤ e.status then
    { level := .error, part := .failures, message := "error processing request"
      fields := [("error", .text e.text)] }
  else
    { level := .warn, part := .failures, message := "request rejected"
      fields := [("error", .text e.text)] }

/-- The body of the response, which names the operation. -/
def body (e : Error) (operationId : String) : List Char :=
  writtenObject
    [writtenMember "status" (Numeral.ofNat e.status),
      writtenMember "message" (writtenText e.clientMessage.toList),
      writtenMember "operationId" (writtenText operationId.toList)]

def response (e : Error) (operationId : String) : Response :=
  .document e.status (e.body operationId)

end Error
end MailDispatch.Api
