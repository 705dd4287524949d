import MailDispatch.Api.Error
import MailDispatch.Work.Backend

/-! # Handling a request

Whatever a handler does runs within the operation of its request. Its errors and
its crashes become responses that name the operation, and the log tells the begin
and the end of every request.
-/
namespace MailDispatch.Api
open Http Work

/-- What a handler leaves behind: its result, and the operation with the name it was given. -/
structure Handled where
  result : Outcome Error Response
  operation : Log.Operation

abbrev Handler (σ : Type) : Type := Request → Log.Operation → σ → Handled × σ

def operationOf (r : Request) (id : String) : Log.Operation :=
  { id
    method := some r.method
    uri := some r.target.text
    correlation := (r.header? "x-correlation-id").filter fun v => !v.isEmpty
    client := r.client }

def beginEvent : Log.Event :=
  { level := .info, part := .requests, message := "begin processing request" }

def endEvent (status : Nat) : Log.Event :=
  { level := .info, part := .requests, message := "end processing request"
    fields := [("status", .whole status)] }

/-- The error that a handler ended with; a crash is one too. -/
def failureOf : Outcome Error Response → Except Error Response
  | .value r => .ok r
  | .error e => .error e
  | .crash c => .error (.crashed c.message)

variable {σ : Type}

/-- A response without its body, where only the head of a resource is wanted. -/
def headOnly (r : Request) (response : Response) : Response :=
  if r.method = "HEAD" then { response with body := "" } else response

def handle (log : Log.Record → σ → σ) (h : Handler σ) (id : String) (r : Request) (s : σ) :
    Response × σ :=
  let start := operationOf r id
  let s := log ⟨beginEvent, some start⟩ s
  let (handled, s) := h r start s
  let operation := some handled.operation
  let (response, s) := match failureOf handled.result with
    | .ok response => (response, s)
    | .error e => (e.response id, log ⟨e.event, operation⟩ s)
  let s := log ⟨endEvent response.status, operation⟩ s
  (headOnly r { response with operationId := some id }, s)

end MailDispatch.Api
