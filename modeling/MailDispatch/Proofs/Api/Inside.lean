import MailDispatch.Proofs.Api.LogTrace
import MailDispatch.Proofs.Service.Heeding

/-! # What goes wrong inside

Whatever goes wrong while a request is handled, at whatever step, the client gets one and the same
reply. The words of what went wrong have no bearing on it, nor on the tables and the mail that the
request leaves behind. A rejection has a reply of its own, however it came about.
-/
namespace MailDispatch.Api
open Http Mailing Service Store Time Work

variable {σ α : Type}

theorem replyOf_inside {x : Outcome Error Response} (h : x.Inside Error.Internal) :
    replyOf x = .internal := by
  cases x with
  | value response => exact absurd h id
  | error e => exact Error.reply_of_internal h
  | crash c => rfl

theorem inside_ofEnded {x : Ended Failure α} (h : x.Inside Failure.Internal) :
    (ofEnded x).Inside Error.Internal := by
  cases x with
  | value a => exact h
  | failed f => exact Error.internal_ofFailure h
  | crashed | notBegun | notCommitted => trivial

/-! ## Steps that go wrong -/

/-- A missing row is no failure if it is that of a customer, who is not known yet then, or of the
entry that a client asks to remove. -/
def awaitedFor (r : Request) (c : Call) (p : Problem) : Bool :=
  p.isNoRow && match c with
    | .customerByEmail _ => true
    | .deleteEntry _ => r.method == "DELETE"
    | _ => false

section
variable {app : App σ} {seen : σ → List Observation} {awaited : Call → Problem → Bool}

theorem heeded_andThen {β : Type} {next : α → σ → Outcome Error β × σ} {s : σ}
    {ran : Outcome Error α × σ} (h : Heeded seen awaited (Outcome.Inside Error.Internal) s ran)
    (hnext : ∀ a t, Heeded seen awaited (Outcome.Inside Error.Internal) t (next a t)) :
    Heeded seen awaited (Outcome.Inside Error.Internal) s (andThen next ran) := by
  rcases ran with ⟨a | e | c, t⟩
  · exact h.trans (hnext a t) False.elim
  · exact h.mono id
  · exact h.mono id

variable (hb : app.backend.Sees seen) (r : Request) (o : Log.Operation)
include hb

theorem heeded_within {w : Work Failure α} (hw : w.Heeds awaited Failure.Internal) (s : σ) :
    Heeded seen awaited (Outcome.Inside Error.Internal) s (app.within o w s) :=
  (hb.within (some o) hw s).mono inside_ofEnded

theorem heeded_create (s : σ) :
    Heeded seen (awaitedFor r) (Outcome.Inside Error.Internal) s (app.create r o s) := by
  have unknown : ∀ email p, p.isNoRow = true → awaitedFor r (.customerByEmail email) p = true :=
    fun email p h => by rw [awaitedFor, h, Bool.true_and]
  rw [App.create_eq_andThen]
  cases readBody createRecord r with
  | error e => exact .nil _ _
  | ok draft =>
    exact heeded_andThen (heeded_within hb o (heeds_create unknown draft) s) fun _ _ => .nil _ _

theorem heeded_remove (hmethod : r.method = "DELETE") (segment : String) (s : σ) :
    Heeded seen (awaitedFor r) (Outcome.Inside Error.Internal) s (app.remove segment o s) := by
  rw [App.remove_eq_andThen]
  cases Id.parse .mailingEntry segment with
  | error rejection => exact .nil _ _
  | ok id =>
    have missing : ∀ p, p.isNoRow = true → awaitedFor r (.deleteEntry id) p = true := fun p h => by
      rw [awaitedFor, h, hmethod]
      rfl
    exact heeded_andThen (heeded_within hb o (heeds_remove missing) s) fun _ _ => .nil _ _

theorem heeded_logged {record : Log.Record} {inside : α → Prop} {s : σ} {ran : α × σ}
    (h : Heeded seen awaited inside (app.backend.log record s) ran) :
    Heeded seen awaited inside s ran :=
  .asked (hb.log record s) rfl h

variable (hemailer : ∀ m, (app.emailer m).Heeds awaited fun _ => True)
include hemailer

theorem heeded_sendPurged (m : MailingId) (s : σ) :
    Heeded seen awaited (Outcome.Inside Error.Internal) s (app.sendPurged m o s) := by
  rw [App.sendPurged_eq_andThen]
  exact heeded_andThen (heeded_within hb o (heeds_sendMailing hemailer m) s)
    fun _ _ => heeded_logged hb (.nil _ _)

theorem heeded_send (s : σ) :
    Heeded seen awaited (Outcome.Inside Error.Internal) s (app.send r o s) := by
  rw [App.send_eq_andThen]
  cases readBody sendRecord r with
  | error e => exact .nil _ _
  | ok request =>
    dsimp only
    cases request.target with
    | error rejection => exact .nil _ _
    | ok m =>
      refine heeded_andThen
        (heeded_within hb o (heeds_purgeMailing m app.now app.threshold) s) fun n t => ?_
      split
      · exact heeded_logged hb (heeded_sendPurged hb o hemailer m _)
      · exact heeded_sendPurged hb o hemailer m t

end

section
variable {app : App σ} {seen : σ → List Observation} (hb : app.backend.Sees seen) (r : Request)
  (hemailer : ∀ m, (app.emailer m).Heeds (awaitedFor r) fun _ => True)
include hb hemailer

theorem heeded_handler (o : Log.Operation) (s : σ) :
    Heeded seen (awaitedFor r) (fun handled => handled.result.Inside Error.Internal) s
      (app.handler r o s) := by
  unfold App.handler
  cases hroute : route messageRoutes r with
  | unknown | notAllowed methods | badSegment name => exact .nil _ _
  | found endpoint segments =>
    cases endpoint with
    | health => exact .nil _ _
    | create => exact (heeded_create hb r _ s).mono id
    | send => exact (heeded_send hb r _ hemailer s).mono id
    | remove =>
      have hmethod : r.method = "DELETE" := List.mem_singleton.mp (method_of_route hroute)
      exact (heeded_remove hb r _ hmethod _ s).mono id

omit hemailer in
theorem heeded_logs (records : List Log.Record) (s : σ) :
    Heeded seen (awaitedFor r) (fun _ : Unit => False) s
      ((), records.foldl (fun s x => app.backend.log x s) s) := by
  induction records generalizing s with
  | nil => exact .nil _ s
  | cons x records ih => exact heeded_logged hb (ih _)

/-- A request in which a step goes wrong gets the reply to all that goes wrong. -/
theorem heeded_respond (id : String) (s : σ) :
    Heeded seen (awaitedFor r) (· = Reply.internal.render r id) s (app.respond id r s) := by
  let handled := app.handler r (operationOf r id)
    (app.backend.log ⟨beginEvent, some (operationOf r id)⟩ s)
  have hhandled := heeded_handler hb r hemailer (operationOf r id)
    (app.backend.log ⟨beginEvent, some (operationOf r id)⟩ s)
  have hstate : (app.respond id r s).2 =
      (ending handled.1).foldl (fun s x => app.backend.log x s) handled.2 := conclude_state _ _ _ _ _
  have hended : Heeded seen (awaitedFor r) (· = Reply.internal.render r id) handled.2
      ((app.respond id r s).1, (app.respond id r s).2) := by
    rw [hstate]
    exact (heeded_logs hb r (ending handled.1) handled.2).mono False.elim
  refine heeded_logged hb (hhandled.trans hended fun hinside => ?_)
  rw [app.respond_eq_render]
  exact congrArg (Reply.render r id) (replyOf_inside hinside)

end

/-! ## Requests on a store with faults -/

/-- The ways in which a request comes to fail inside: a transaction ends with a failure inside or
cannot be begun or committed, or there is a crash. -/
inductive Breaks (app : App σ) : Outcome Error Response → Prop where
  | within {α : Type} {w : Work Failure α} {o : Log.Operation} {s : σ} {e : Error}
      (hended : (Transaction.within app.backend (some o) w s).1.Inside Failure.Internal)
      (h : (app.within o w s).1 = .error e) : Breaks app (.error e)
  | crash (c : Crash) : Breaks app (.crash c)

theorem Breaks.inside {app : App σ} {x : Outcome Error Response} (h : Breaks app x) :
    x.Inside Error.Internal := by
  cases h with
  | @within α w o s e hended h =>
    have hinside : (app.within o w s).1.Inside Error.Internal := inside_ofEnded hended
    rw [h] at hinside
    exact hinside
  | crash c => trivial

/-- The ways in which an error comes to be a rejection: it is the handler's own, or that of a
service, or it ends the work of a transaction. -/
inductive Rejects (app : App σ) (d : Rejection) : Error → Prop where
  | directly : Rejects app d (.rejected d)
  | byService : Rejects app d (.ofFailure (.rejected d))
  | within {α : Type} {w : Work Failure α} {o : Log.Operation} {s : σ} {e : Error}
      (hended : (Transaction.within app.backend (some o) w s).1 = .failed (.rejected d))
      (h : (app.within o w s).1 = .error e) : Rejects app d e

theorem Rejects.eq {app : App σ} {d : Rejection} {e : Error} (h : Rejects app d e) :
    e = .rejected d := by
  cases h with
  | directly | byService => rfl
  | within hended h =>
    rw [App.within] at h
    change ofEnded _ = _ at h
    rw [hended] at h
    exact (Outcome.error.inj h).symm

/-- The reply to a request that is rejected, however that came about. -/
def Reply.rejection (d : Rejection) : Reply := .failed (Error.rejected d).status d.message

/-- Neither the responses nor the tables and the mail depend on the words of what goes wrong
inside. One reply is given to all that goes wrong there, at whatever step, and one to each
rejection. -/
theorem failures_inside_do_not_interfere {emailer : Emailer}
    (hemailer : emailer = carrier ∨ emailer = logOnly) (threshold : Span) (now : Timestamp)
    (r : Request) :
    let app : App Injected := ⟨Injected.backend, emailer, threshold, now⟩
    (∀ (s t : Injected) (id id' : String), s.Alike t →
      (∃ reply : Reply, (app.respond id r s).1 = reply.render r id ∧
        (app.respond id' r t).1 = reply.render r id') ∧
      (app.respond id r s).2.store = (app.respond id' r t).2.store ∧
      (app.respond id r s).2.outbox = (app.respond id' r t).2.outbox) ∧
    (∀ (s : Injected) (id : String), ∃ seen,
      app.observed.respond id r (s, []) = ((app.respond id r s).1, (app.respond id r s).2, seen) ∧
      ((∃ x ∈ seen, x.failing (awaitedFor r) = true) →
        (app.respond id r s).1 = Reply.internal.render r id)) ∧
    (∀ (s : Injected) (id : String), Breaks app (app.resultOf id r s) →
      (app.respond id r s).1 = Reply.internal.render r id) ∧
    (∀ (s : Injected) (id : String) (d : Rejection) (e : Error), Rejects app d e →
      app.resultOf id r s = .error e →
      (app.respond id r s).1 = (Reply.rejection d).render r id) := by
  intro app
  have halike : ∀ m, (app.emailer m).Alike anyText (app.emailer m) := alike_delivery hemailer
  have hheeds : ∀ m, (app.emailer m).Heeds (awaitedFor r) fun _ => True := heeds_delivery hemailer
  have hdiscreet : ∀ m, (app.emailer m).Tells Plain := tells_delivery hemailer
  refine ⟨?_, ?_, ?_, ?_⟩
  · intro s t id id' hst
    obtain ⟨hreply, hstates⟩ := alike_respond Injected.alike_backend r hst halike id id'
    exact ⟨hreply, hstates.store, hstates.outbox⟩
  · intro s id
    have hsees : app.observed.backend.Sees Prod.snd := app.backend.observed_sees
    obtain ⟨seen, hobserved⟩ : ∃ seen, app.observed.respond id r (s, []) =
        ((app.respond id r s).1, (app.respond id r s).2, seen) := by
      obtain ⟨worked, hobserved, -⟩ := App.observed_respond hdiscreet id r s
      exact ⟨_, hobserved⟩
    obtain ⟨added, hadded, hinside⟩ := heeded_respond hsees r hheeds id (s, [])
    rw [hobserved] at hadded hinside
    obtain rfl : seen = added := hadded
    exact ⟨seen, hobserved, fun ⟨x, hx, hfailing⟩ => hinside x hx hfailing⟩
  · intro s id hbreaks
    rw [app.respond_eq_render, replyOf_inside hbreaks.inside]
  · intro s id d e hrejects hresult
    rw [app.respond_eq_render, hresult, hrejects.eq]
    rfl

/-- The store fails to insert an entry, a mail is refused, and a deletion crashes. -/
theorem failing_steps_do_not_interfere :
    let t : Tables :=
      ⟨[⟨⟨1⟩, "anna@example.com"⟩], [⟨⟨⟨1⟩, ⟨7⟩, "Hello", "World", .latest⟩, ⟨1⟩⟩], 1, 1⟩
    let app : App Injected := ⟨Injected.backend, carrier, .ofSeconds 60, .latest⟩
    let creation := posted "/api/messages"
      "[8, \"anna@example.com\", \"Hello\", \"World\", \"2024-05-01T10:00:00Z\"]"
    let sending := posted "/api/messages/send" "[7]"
    let on : Plan → Injected := fun plan => { plan, store := ⟨t, none, 0⟩ }
    let failing := on fun _ p => match p with
      | .call (.insertEntry _) => .problem (.failed "insert" "connection to 10.0.0.7 lost")
      | _ => .nothing
    let refusing := on fun _ p => match p with
      | .deliver _ => .refusal "mailbox of anna is full"
      | _ => .nothing
    let crashing := fun c : Crash => on fun _ p => match p with
      | .call _ => .crash c
      | _ => .nothing
    let speaking := crashing (.text "assertion failed: connection to 10.0.0.7 lost")
    let silent := crashing (.code 7)
    let generic : Response :=
      { status := 500, contentType := some "application/json", operationId := some "a"
        body := "\x7b\"status\":500,\"message\":\"request processing failed\",\"operationId\":\"a\"\x7d" }
    (app.respond "a" creation failing).1 = generic ∧
    (app.respond "a" sending refusing).1 = generic ∧
    (app.respond "a" (deletion "1") speaking).1 = generic ∧
    (∃ reply : Reply,
      (app.respond "a" (deletion "1") speaking).1 = reply.render (deletion "1") "a" ∧
        (app.respond "b" (deletion "1") silent).1 = reply.render (deletion "1") "b") ∧
    (app.respond "a" (deletion "2") (on fun _ _ => .nothing)).1 =
      { status := 404, contentType := some "application/json", operationId := some "a"
        body := "\x7b\"status\":404,\"message\":\"mailing entry with ID 2 doesn't exist\",\"operationId\":\"a\"\x7d" } := by
  intro t app creation sending on failing refusing crashing speaking silent generic
  have hfailed : ∀ (r : Request) (s : Injected),
      ((app.observed.respond "a" r (s, [])).2.2.any fun x => x.failing (awaitedFor r)) = true →
        (app.respond "a" r s).1 = Reply.internal.render r "a" := by
    intro r s hany
    obtain ⟨-, hinside, -⟩ :=
      failures_inside_do_not_interfere (.inl rfl) (.ofSeconds 60) .latest r
    obtain ⟨seen, hobserved, hreply⟩ := hinside s "a"
    have hseen : (app.observed.respond "a" r (s, [])).2.2 = seen := congrArg (·.2.2) hobserved
    rw [hseen] at hany
    exact hreply (List.any_eq_true.mp hany)
  have halike : speaking.Alike silent := by
    refine ⟨fun past p => ?_, rfl, rfl, rfl⟩
    cases p with
    | call c => exact .crash _ _
    | begin | commit | rollback | deliver => exact .nothing
  have hmissing : app.resultOf "a" (deletion "2") (on fun _ _ => .nothing) =
      .error (.rejected (.notFound "mailing entry with ID 2 doesn't exist")) := by decide +kernel
  have hended : (Transaction.within app.backend (some (operationOf (deletion "2") "a"))
      (Service.remove ⟨2⟩) (on fun _ _ => .nothing)).1 =
      .failed (.rejected (.notFound "mailing entry with ID 2 doesn't exist")) := by decide +kernel
  obtain ⟨hreplies, -⟩ :=
    failures_inside_do_not_interfere (.inl rfl) (.ofSeconds 60) .latest (deletion "1")
  obtain ⟨-, -, -, hrejected⟩ :=
    failures_inside_do_not_interfere (.inl rfl) (.ofSeconds 60) .latest (deletion "2")
  refine ⟨?_, ?_, ?_, (hreplies speaking silent "a" "b" halike).1, ?_⟩
  · exact (hfailed creation failing (by decide +kernel)).trans (by decide +kernel)
  · exact (hfailed sending refusing (by decide +kernel)).trans (by decide +kernel)
  · exact (hfailed (deletion "1") speaking (by decide +kernel)).trans (by decide +kernel)
  · refine (hrejected _ "a" _ _ (.within hended ?_) hmissing).trans (by decide +kernel)
    decide +kernel

end MailDispatch.Api
