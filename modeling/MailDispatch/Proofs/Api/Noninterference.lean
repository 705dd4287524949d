import MailDispatch.Proofs.Api.Reports
import MailDispatch.Proofs.Service.Indifference
import MailDispatch.Proofs.Work.Injected

/-! # Words from inside stay inside

A response is made of a reply, which knows nothing of its operation, and of the name of the
operation. Two runs in which the same steps go wrong, in other words, give the same reply and
leave the same tables and mail.
-/
namespace MailDispatch.Api
open Text Json Http Mailing Service Store Time Work

variable {σ α : Type}

/-! ## Replies -/

/-- What a response says, apart from its operation. -/
inductive Reply where
  | given (response : Response)
  | failed (status : Nat) (message : String)
  deriving DecidableEq

/-- The reply to every request that fails inside. -/
def Reply.internal : Reply := .failed 500 "request processing failed"

def Reply.response (id : String) : Reply → Response
  | .given response => response
  | .failed status message =>
    .document status (errorShape.written [.whole status, .text message, .text id])

def Reply.render (r : Request) (id : String) (reply : Reply) : Response :=
  headOnly r { reply.response id with operationId := some id }

def Error.reply (e : Error) : Reply := .failed e.status e.clientMessage

def replyOf : Outcome Error Response → Reply
  | .value response => .given response
  | .error e => e.reply
  | .crash c => (Error.crashed c.message).reply

theorem conclude_eq_render (log : Log.Record → σ → σ) (id : String) (r : Request)
    (handled : Handled) (s : σ) :
    (conclude log id r handled s).1 = (replyOf handled.result).render r id := by
  cases h : handled.result <;> simp only [conclude, failureOf, h] <;> rfl

/-- What the handler makes of a request. -/
def App.resultOf (app : App σ) (id : String) (r : Request) (s : σ) : Outcome Error Response :=
  (app.handler r (operationOf r id)
    (app.backend.log ⟨beginEvent, some (operationOf r id)⟩ s)).1.result

theorem App.respond_eq_render (app : App σ) (id : String) (r : Request) (s : σ) :
    (app.respond id r s).1 = (replyOf (app.resultOf id r s)).render r id := by
  rw [App.respond, handle_eq, conclude_eq_render]
  rfl

/-! ## Errors that the client cannot tell apart -/

def Error.Internal : Error → Prop
  | .rejected _ | .malformed _ => False
  | .store _ _ | .delivery _ _ | .notBegun _ | .notCommitted _ | .crashed _ => True

/-- The same error, or any two that lie inside. -/
def Error.Alike (e f : Error) : Prop := e = f ∨ e.Internal ∧ f.Internal

theorem Error.reply_of_internal {e : Error} (h : e.Internal) : e.reply = .internal := by
  cases e with
  | rejected r => exact absurd h id
  | malformed detail => exact absurd h id
  | store | delivery | notBegun | notCommitted | crashed => rfl

theorem Error.Alike.reply_eq {e f : Error} (h : e.Alike f) : e.reply = f.reply := by
  rcases h with rfl | ⟨he, hf⟩
  · rfl
  · rw [reply_of_internal he, reply_of_internal hf]

theorem Error.internal_ofFailure {f : Failure} (h : f.Internal) : (Error.ofFailure f).Internal := by
  cases f with
  | rejected r => exact h
  | store | delivery => trivial

theorem Error.Alike.ofFailure {f g : Failure} (h : f.Alike g) :
    (Error.ofFailure f).Alike (.ofFailure g) := by
  rcases h with rfl | ⟨hf, hg⟩
  · exact .inl rfl
  · exact .inr ⟨internal_ofFailure hf, internal_ofFailure hg⟩

theorem replyOf_eq {x y : Outcome Error Response} (h : x.Alike Error.Alike y) :
    replyOf x = replyOf y := by
  cases h with
  | value response => rfl
  | error h => exact h.reply_eq
  | crash c d => rfl

theorem alike_ofEnded {x y : Ended Failure α} (h : x.Alike Failure.Alike y) :
    (ofEnded x).Alike Error.Alike (ofEnded y) := by
  cases h with
  | value a => exact .value a
  | failed h => exact .error (.ofFailure h)
  | crashed c d => exact .crash c d
  | notBegun p q => exact .error (.inr ⟨trivial, trivial⟩)
  | notCommitted p q => exact .error (.inr ⟨trivial, trivial⟩)

/-! ## Handlers -/

theorem alike_andThen {β : Type} {R : σ → σ → Prop} {next later : α → σ → Outcome Error β × σ}
    {x y : Outcome Error α × σ} (h : Both (Outcome.Alike Error.Alike) R x y)
    (hnext : ∀ a {s t}, R s t → Both (Outcome.Alike Error.Alike) R (next a s) (later a t)) :
    Both (Outcome.Alike Error.Alike) R (andThen next x) (andThen later y) := by
  obtain ⟨outcome, outcome', s, t, rfl, rfl, halike, hstates⟩ := h.exists_eq
  cases halike with
  | value a => exact hnext a hstates
  | error hef => exact ⟨.error hef, hstates⟩
  | crash c d => exact ⟨.crash c d, hstates⟩

section
variable {app : App σ} {R : σ → σ → Prop} (hb : Backend.Alike R app.backend app.backend)
  (r : Request) (o o' : Log.Operation) {s t : σ} (hst : R s t)
include hb hst

/-- All that is done at the end of a request is to log it. -/
theorem alike_conclude {x y : Handled} (hxy : x.result.Alike Error.Alike y.result)
    (id id' : String) :
    R (conclude app.backend.log id r x s).2 (conclude app.backend.log id' r y t).2 := by
  obtain ⟨result, operation⟩ := x
  obtain ⟨result', operation'⟩ := y
  cases hxy with
  | value response => exact hb.log _ _ s t hst
  | error hef => exact hb.log _ _ _ _ (hb.log _ _ s t hst)
  | crash c d => exact hb.log _ _ _ _ (hb.log _ _ s t hst)

theorem alike_within {w : Work Failure α} (hw : Indifferent w) :
    Both (Outcome.Alike Error.Alike) R (app.within o w s) (app.within o' w t) := by
  obtain ⟨hended, hstates⟩ := hb.within hw (some o) (some o') hst
  exact ⟨alike_ofEnded hended, hstates⟩

theorem alike_create :
    Both (Outcome.Alike Error.Alike) R (app.create r o s) (app.create r o' t) := by
  rw [App.create_eq_andThen, App.create_eq_andThen]
  cases readBody createRecord r with
  | error e => exact ⟨.error (.inl rfl), hst⟩
  | ok draft =>
    have hwithin := alike_within hb o o' hst (indifferent_create draft)
    exact alike_andThen hwithin fun _ _ _ hstates => ⟨.value _, hstates⟩

theorem alike_remove (segment : String) :
    Both (Outcome.Alike Error.Alike) R (app.remove segment o s) (app.remove segment o' t) := by
  rw [App.remove_eq_andThen, App.remove_eq_andThen]
  cases Id.parse .mailingEntry segment with
  | error r => exact ⟨.error (.inl rfl), hst⟩
  | ok id =>
    have hwithin := alike_within hb o o' hst (indifferent_remove id)
    exact alike_andThen hwithin fun _ _ _ hstates => ⟨.value _, hstates⟩

variable (hemailer : ∀ m, (app.emailer m).Alike anyText (app.emailer m))
include hemailer

theorem alike_sendPurged (m : MailingId) :
    Both (Outcome.Alike Error.Alike) R (app.sendPurged m o s) (app.sendPurged m o' t) := by
  rw [App.sendPurged_eq_andThen, App.sendPurged_eq_andThen]
  have hwithin := alike_within hb o o' hst (indifferent_sendMailing hemailer m)
  exact alike_andThen hwithin fun _ s' t' hstates => ⟨.value _, hb.log _ _ s' t' hstates⟩

theorem alike_send : Both (Outcome.Alike Error.Alike) R (app.send r o s) (app.send r o' t) := by
  rw [App.send_eq_andThen, App.send_eq_andThen]
  cases readBody sendRecord r with
  | error e => exact ⟨.error (.inl rfl), hst⟩
  | ok request =>
    dsimp only
    cases request.target with
    | error rejection => exact ⟨.error (.inl rfl), hst⟩
    | ok m =>
      refine alike_andThen
        (alike_within hb o o' hst (indifferent_purgeMailing m app.now app.threshold)) ?_
      intro n s' t' hstates
      split
      · exact alike_sendPurged hb o o' (hb.log _ _ s' t' hstates) hemailer m
      · exact alike_sendPurged hb o o' hstates hemailer m

theorem alike_handler :
    (app.handler r o s).1.result.Alike Error.Alike (app.handler r o' t).1.result ∧
      R (app.handler r o s).2 (app.handler r o' t).2 := by
  unfold App.handler
  cases route messageRoutes r with
  | unknown | notAllowed methods | badSegment name => exact ⟨.value _, hst⟩
  | found endpoint segments =>
    cases endpoint with
    | health => exact ⟨.value _, hst⟩
    | create => exact alike_create hb r _ _ hst
    | send => exact alike_send hb r _ _ hst hemailer
    | remove => exact alike_remove hb _ _ hst _

/-- Runs that are alike give one reply, under the names of their operations. -/
theorem alike_respond (id id' : String) :
    (∃ reply : Reply, (app.respond id r s).1 = reply.render r id ∧
      (app.respond id' r t).1 = reply.render r id') ∧
    R (app.respond id r s).2 (app.respond id' r t).2 := by
  have hbegun := hb.log ⟨beginEvent, some (operationOf r id)⟩ ⟨beginEvent, some (operationOf r id')⟩
    s t hst
  obtain ⟨hresult, hstates⟩ :=
    alike_handler hb r (operationOf r id) (operationOf r id') hbegun hemailer
  refine ⟨⟨replyOf (app.resultOf id r s), app.respond_eq_render id r s, ?_⟩, ?_⟩
  · rw [app.respond_eq_render id' r t]
    exact congrArg (Reply.render r id') (replyOf_eq hresult).symm
  · exact alike_conclude hb r hstates hresult id id'

end

end MailDispatch.Api
