import MailDispatch.Proofs.Api.Noninterference
import MailDispatch.Proofs.Api.Tidiness
import MailDispatch.Proofs.Service.Telling
import MailDispatch.Proofs.Work.Observed

/-! # The log of a request

The log of a request begins and ends with an event of its own. What is recorded between belongs to
the operation of the request, and if the request fails, the last of it is the report of that. An
event that tells of a success or of a failed rollback comes right after what it tells of.
-/
namespace MailDispatch.Api
open Http Mailing Service Work Store

variable {σ : Type}

/-- The events that frame a request. -/
def framing : List String :=
  ["begin processing request", "end processing request", "request rejected",
    "error processing request"]

/-- The events that tell of a certain thing that has happened in the store. -/
def telling : List String :=
  ["created mailing entry", "mailing sent", "error rolling back transaction"]

def Recorded (e : Log.Event) : Prop := e.level.rank ≤ Log.Level.info.rank

/-- An event of no special meaning. -/
def Plain (e : Log.Event) : Prop := Recorded e ∧ e.message ∉ framing ++ telling

/-- An event tells of what was observed just before it. -/
structure Grounds (past : List Observation) (e : Log.Event) : Prop where
  created : e.message = "created mailing entry" →
    ∃ pre token n x, past = pre ++ [.called token (.insertEntry n) (.value x)] ∧
      e =
        { level := .info, part := .creation, message := "created mailing entry"
          fields := [("mailing_entry_id", .text x.id.text)] }
  /-- The transaction that was committed is the one in which the entries of the mailing were
  listed. -/
  sent : e.message = "mailing sent" →
    ∃ pre token m entries, past = pre ++ [.committed token (.value ())] ∧
      .called token (.entriesOfMailing m) (.value entries) ∈ pre ∧
      e =
        { level := .info, part := .messages, message := "mailing sent"
          fields := [("sent", .whole entries.length), ("mailing_id", .text m.text)] }
  unrolled : e.message = "error rolling back transaction" →
    ∃ pre token p, past = pre ++ [.rolledBack token (.error p)] ∧
      e =
        { level := .error, part := .transactions, message := "error rolling back transaction"
          fields := [("error", .text p.text)] }

theorem Grounds.of_not_telling {past : List Observation} {e : Log.Event}
    (h : e.message ∉ telling) : Grounds past e where
  created hm := absurd (by simp [hm, telling]) h
  sent hm := absurd (by simp [hm, telling]) h
  unrolled hm := absurd (by simp [hm, telling]) h

/-- A record of the work for a request: it is not of those that frame it, belongs to its operation,
and tells what has happened. -/
structure Belongs (id : String) (past : List Observation) (r : Log.Record) : Prop where
  recorded : Recorded r.event
  apart : r.event.message ∉ framing
  operation : ∃ o, r.operation = some o ∧ o.id = id
  grounds : Grounds past r.event

section
variable {id : String} {o : Log.Operation} (ours : o.id = id)
include ours

theorem Plain.belongs {e : Log.Event} (h : Plain e) (past : List Observation) :
    Belongs id past ⟨e, some o⟩ where
  recorded := h.1
  apart hm := h.2 (List.mem_append_left _ hm)
  operation := ⟨o, rfl, ours⟩
  grounds := .of_not_telling fun hm => h.2 (List.mem_append_right _ hm)

theorem reporting_belongs : Transaction.Reporting (Belongs id) (some o) where
  crashed c past := by
    have plain : Plain (Transaction.crashEvent c) :=
      ⟨Nat.le_of_ble_eq_true rfl, by simp [Transaction.crashEvent, framing, telling]⟩
    exact plain.belongs ours past
  unrolled token p past := by
    refine ⟨Nat.le_of_ble_eq_true rfl, ?_, ⟨o, rfl, ours⟩, ?_, ?_, ?_⟩
    · simp [Transaction.rollbackEvent, framing]
    · simp [Transaction.rollbackEvent]
    · simp [Transaction.rollbackEvent]
    · exact fun _ => ⟨past, token, p, rfl, rfl⟩

/-! ## The units of work -/

/-- Work that tells nothing of a special meaning. -/
theorem grounded_of_plain {α : Type} {w : Work Failure α} (h : w.Tells Plain) (token : Token)
    (past : List Observation) : w.Grounded (Belongs id) (some o) token past :=
  h.grounded (fun _ past he => Plain.belongs ours he past) past

theorem grounded_insert (e : NewEntry) (token : Token) (past : List Observation) :
    (insert e).Grounded (Belongs id) (some o) token past := by
  rintro (p | x)
  · trivial
  · refine ⟨⟨Nat.le_refl _, ?_, ⟨o, rfl, ours⟩, ?_, ?_, ?_⟩, trivial⟩
    · simp [entryCreated, framing]
    · exact fun _ => ⟨past, token, e, x, rfl, rfl⟩
    · simp [entryCreated]
    · simp [entryCreated]

theorem grounded_create (d : Draft) (token : Token) (past : List Observation) :
    (Service.create d).Grounded (Belongs id) (some o) token past := by
  have created : ∀ c, Plain (customerCreated c) :=
    fun c => ⟨Nat.le_refl _, by simp [customerCreated, framing, telling]⟩
  have checked : (Work.ofExcept (d.check.mapError Failure.rejected)).Grounded (Belongs id) (some o) token
      past := by
    cases d.check with
    | ok u | error r => trivial
  refine checked.bind fun u past => ?_
  refine (grounded_of_plain ours (tells_customerFor created _) token past).bind fun c past => ?_
  refine (grounded_of_plain ours (tells_refuseDuplicate _) token past).bind fun u past => ?_
  exact grounded_insert ours _ token past

end

theorem tells_removal (i : MailingEntryId) : (Service.remove i).Tells Plain :=
  tells_remove (fun _ => ⟨Nat.le_refl _, by simp [removing, framing, telling]⟩) i

theorem tells_purging (m : MailingId) (now : Time.Timestamp) (threshold : Time.Span) :
    (purgeMailing m now threshold).Tells Plain :=
  tells_purgeMailing (fun _ => ⟨Nat.le_refl _, by simp [purgedEvent, framing, telling]⟩)
    (fun _ => ⟨Nat.le_refl _, by simp [removingCustomer, framing, telling]⟩) m now threshold

theorem tells_sending {emailer : Emailer} (discreet : ∀ m, (emailer m).Tells Plain)
    (m : MailingId) : (sendMailing emailer m).Tells Plain :=
  tells_sendMailing discreet
    (fun _ => ⟨Nat.le_refl _, by simp [removingSent, framing, telling]⟩) m

theorem tells_delivery {emailer : Emailer} (h : emailer = carrier ∨ emailer = logOnly) (m : Mail) :
    (emailer m).Tells Plain := by
  rcases h with rfl | rfl
  · exact tells_carrier m
  · exact ⟨⟨Nat.le_refl _, by simp [framing, telling]⟩, trivial⟩

/-! ## The entries that were listed -/

theorem run_asking (b : Backend σ) (operation : Option Log.Operation) (token : Token) (step : String)
    (c : Call) (s : σ) :
    (asking step c).run b operation token s =
      match b.call token c s with
      | (.value a, s) => (.value a, s)
      | (.error p, s) => (.error (.store step p), s)
      | (.crash x, s) => (.crash x, s) := by
  rcases h : b.call token c s with ⟨a | p | x, t⟩
  all_goals simp [asking, ask, mapError, Work.run, h]

theorem exists_seen_of_run {α : Type} (b : Backend σ) (operation : Option Log.Operation)
    (token : Token) (w : Work Failure α) (s : σ) (before : List Observation) :
    ∃ seen, (w.run b.observed operation token (s, before)).2.2 = before ++ seen := by
  have grounded : w.Grounded (fun _ _ => True) operation token before :=
    (tells_true w).grounded (fun _ _ _ => trivial) before
  obtain ⟨seen, hran, -⟩ := grounded.run (b := b) s
  exact ⟨seen, by rw [hran]⟩

/-- A mailing that was sent was listed, and its entries were counted. -/
theorem listed_of_run {b : Backend σ} {emailer : Emailer} {m : MailingId}
    {operation : Option Log.Operation} {token : Token} {s t : σ} {past worked : List Observation}
    {n : Nat} (h : (sendMailing emailer m).run b.observed operation token (s, past) =
      (.value n, t, worked)) :
    ∃ entries, .called token (.entriesOfMailing m) (.value entries) ∈ worked ∧
      n = entries.length := by
  have hcall : b.observed.call token (.entriesOfMailing m) (s, past) =
      ((b.call token (.entriesOfMailing m) s).1, (b.call token (.entriesOfMailing m) s).2,
        past ++ [.called token (.entriesOfMailing m) (b.call token (.entriesOfMailing m) s).1]) := rfl
  unfold sendMailing at h
  change ((asking _ (.entriesOfMailing m)).bind _).run b.observed operation token (s, past) = _ at h
  rw [Work.run_bind, run_asking, hcall] at h
  generalize b.call token (.entriesOfMailing m) s = called at h
  rcases called with ⟨entries | p | x, t'⟩
  · cases entries with
    | nil => cases h
    | cons e es =>
      change ((each (sendEntry emailer) (e :: es)).bind fun _ => done (e :: es).length).run
        b.observed operation token _ = _ at h
      rw [Work.run_bind] at h
      obtain ⟨seen, hseen⟩ := exists_seen_of_run b operation token
        (each (sendEntry emailer) (e :: es)) t'
        (past ++ [.called token (.entriesOfMailing m) (.value (e :: es))])
      generalize (each (sendEntry emailer) (e :: es)).run b.observed operation token _ = sent
        at h hseen
      rcases sent with ⟨u | f | x, t'', after⟩
      · cases h
        change worked = _ at hseen
        refine ⟨e :: es, ?_, rfl⟩
        rw [hseen]
        simp
      · cases h
      · cases h
  · cases h
  · cases h

/-! ## Handlers -/

namespace App

def observed (app : App σ) : App (σ × List Observation) :=
  ⟨app.backend.observed, app.emailer, app.threshold, app.now⟩

variable (app : App σ) {id : String} {o : Log.Operation}

section
variable (ours : o.id = id)
include ours

theorem observed_within {α : Type} {w : Work Failure α}
    (grounded : ∀ token past, w.Grounded (Belongs id) (some o) token past)
    (before : List Observation) (s : σ) :
    Observed app.backend (Belongs id) before s (app.within o w s)
      (app.observed.within o w (s, before)) :=
  ((reporting_belongs ours).within app.backend grounded before s).map ofEnded

omit ours in
theorem observed_andThen {α β : Type} {next : α → σ → Outcome Error β × σ}
    {later : α → σ × List Observation → Outcome Error β × (σ × List Observation)}
    {ran : Outcome Error α × σ} {watched : Outcome Error α × σ × List Observation}
    {before : List Observation} {s : σ}
    (h : Observed app.backend (Belongs id) before s ran watched)
    (hnext : ∀ a t seen, watched = (.value a, t, before ++ seen) →
      Observed app.backend (Belongs id) (before ++ seen) t (next a t)
        (later a (t, before ++ seen))) :
    Observed app.backend (Belongs id) before s (andThen next ran) (andThen later watched) := by
  obtain ⟨seen, rfl, told, grows⟩ := h
  rcases ran with ⟨a | e | c, t⟩
  · exact .trans told grows (hnext a t seen rfl)
  · exact ⟨seen, rfl, told, grows⟩
  · exact ⟨seen, rfl, told, grows⟩

theorem observed_create (r : Request) (before : List Observation) (s : σ) :
    Observed app.backend (Belongs id) before s (app.create r o s)
      (app.observed.create r o (s, before)) := by
  rw [create_eq_andThen, create_eq_andThen]
  cases readBody createRecord r with
  | error e => exact .nil _ _
  | ok draft =>
    have hwithin := observed_within app ours (grounded_create ours draft) before s
    exact observed_andThen app hwithin fun _ _ _ _ => .nil _ _

theorem observed_remove (segment : String) (before : List Observation) (s : σ) :
    Observed app.backend (Belongs id) before s (app.remove segment o s)
      (app.observed.remove segment o (s, before)) := by
  rw [remove_eq_andThen, remove_eq_andThen]
  cases Id.parse .mailingEntry segment with
  | error r => exact .nil _ _
  | ok i =>
    have hwithin := observed_within app ours (grounded_of_plain ours (tells_removal i)) before s
    exact observed_andThen app hwithin fun _ _ _ _ => .nil _ _

omit ours in
theorem grounds_of_sent {app : App σ} {m : MailingId} {n : Nat} {before after : List Observation} {s t : σ}
    (h : app.observed.within o (sendMailing app.emailer m) (s, before) = (.value n, t, after)) :
    Grounds after (mailingSent m n) := by
  have hwithin : Transaction.within app.backend.observed (some o) (sendMailing app.emailer m)
      (s, before) = (.value n, t, after) := by
    change (fun ran : Ended Failure Nat × σ × List Observation => (ofEnded ran.1, ran.2))
      (Transaction.within app.backend.observed (some o) (sendMailing app.emailer m) (s, before)) = _
      at h
    generalize Transaction.within app.backend.observed (some o) (sendMailing app.emailer m)
      (s, before) = ran at h ⊢
    obtain ⟨ended, state⟩ := ran
    cases ended with
    | value a =>
      cases h
      rfl
    | failed | crashed | notBegun | notCommitted => cases h
  obtain ⟨token, start, past, ended, worked, hran, hafter⟩ :=
    Transaction.exists_run_of_value hwithin
  obtain ⟨entries, hlisted, rfl⟩ := listed_of_run hran
  refine ⟨?_, fun _ => ⟨worked, token, m, entries, hafter, hlisted, rfl⟩, ?_⟩
  · simp [mailingSent]
  · simp [mailingSent]

/-- That a mailing was sent is said right after the commit. -/
theorem observed_sendPurged (discreet : ∀ m, (app.emailer m).Tells Plain) (m : MailingId)
    (before : List Observation) (s : σ) :
    Observed app.backend (Belongs id) before s (app.sendPurged m o s)
      (app.observed.sendPurged m o (s, before)) := by
  rw [sendPurged_eq_andThen, sendPurged_eq_andThen]
  refine observed_andThen app (observed_within app ours
    (grounded_of_plain ours (tells_sending discreet m)) before s) ?_
  intro n t seen hsent
  have belongs : Belongs id (before ++ seen) ⟨mailingSent m n, some o⟩ :=
    ⟨Nat.le_refl _, by simp [mailingSent, framing], ⟨o, rfl, ours⟩, grounds_of_sent hsent⟩
  exact .logged belongs (.nil _ _)

theorem observed_send (discreet : ∀ m, (app.emailer m).Tells Plain) (r : Request)
    (before : List Observation) (s : σ) :
    Observed app.backend (Belongs id) before s (app.send r o s)
      (app.observed.send r o (s, before)) := by
  rw [send_eq_andThen, send_eq_andThen]
  cases readBody sendRecord r with
  | error e => exact .nil _ _
  | ok request =>
    dsimp only
    cases request.target with
    | error rejection => exact .nil _ _
    | ok m =>
      refine observed_andThen app (observed_within app ours
        (grounded_of_plain ours (tells_purging m app.now app.threshold)) before s) ?_
      intro n t seen _
      have plain : Plain (purgedFirst m n) :=
        ⟨Nat.le_refl _, by simp [purgedFirst, framing, telling]⟩
      split
      · exact .logged (plain.belongs ours _) (observed_sendPurged app ours discreet m _ _)
      · exact observed_sendPurged app ours discreet m _ t

end

/-- A handler names its operation and keeps its identifier. -/
theorem observed_handler (discreet : ∀ m, (app.emailer m).Tells Plain) (ours : o.id = id)
    (r : Request) (before : List Observation) (s : σ) :
    Observed app.backend (Belongs id) before s (app.handler r o s)
        (app.observed.handler r o (s, before)) ∧
      (app.handler r o s).1.operation.id = id := by
  unfold App.handler
  split
  · exact ⟨.nil _ _, ours⟩
  · have h := observed_create app (o := o.named "create mailing entry") ours r before s
    exact ⟨h.map fun result => Handled.mk result (o.named "create mailing entry"), ours⟩
  · have h := observed_send app (o := o.named "send mailing entries with mailing ID") ours discreet
      r before s
    exact ⟨h.map fun result =>
      Handled.mk result (o.named "send mailing entries with mailing ID"), ours⟩
  · next segments _ =>
    have h := observed_remove app (o := o.named "delete mailing entry with ID") ours
      (segments.headD "") before s
    exact ⟨h.map fun result => Handled.mk result (o.named "delete mailing entry with ID"), ours⟩
  · exact ⟨.nil _ _, ours⟩

end App

/-! ## Requests -/

/-- How a failure is reported that is answered with a status: as what went wrong inside, or as what
the client has done wrong. -/
def failureEvent (status : Nat) (text : String) : Log.Event :=
  if 500 ≤ status then
    { level := .error, part := .failures, message := "error processing request"
      fields := [("error", .text text)] }
  else
    { level := .warn, part := .failures, message := "request rejected"
      fields := [("error", .text text)] }

theorem failureEvent_not_telling (status : Nat) (text : String) :
    (failureEvent status text).message ∉ telling := by
  unfold failureEvent
  split
  · simp [telling]
  · simp [telling]

theorem Error.status_le (e : Error) : e.status ≤ 500 := by
  cases e with
  | rejected r =>
    cases r with
    | badInput | invalidId | unauthorized | notFound => simp [Error.status]
  | malformed | store | delivery | notBegun | notCommitted | crashed => simp [Error.status]

/-- What is recorded of how a request has ended that is answered with a status. -/
def closing (status : Nat) (handled : Handled) : List Log.Record :=
  match handled.result with
  | .value _ => []
  | .error e => [⟨failureEvent status e.text, some handled.operation⟩]
  | .crash c =>
    [⟨failureEvent status ("request processing panicked: " ++ c.message), some handled.operation⟩]

/-- What a request leaves in the log, beside all else that was observed while it ran. -/
structure Trace (id : String) (r : Request) (handled : Handled) (response : Response)
    (seen : List Observation) : Prop where
  /-- Nothing comes before the begin and nothing after the end. The report of an error is the last
  record before the end, and there is none without an error. -/
  framed : ∃ inner, recordsOf seen =
      ⟨{ level := .info, part := .requests, message := "begin processing request" },
        some (operationOf r id)⟩ :: inner ++ closing response.status handled ++
        [⟨{ level := .info, part := .requests, message := "end processing request"
            fields := [("status", .whole response.status)] }, some handled.operation⟩] ∧
    ∀ x ∈ inner, Recorded x.event ∧ x.event.message ∉ framing
  operation : ∀ x ∈ recordsOf seen, ∃ o, x.operation = some o ∧ o.id = id
  /-- An error decides on the status of the response, and that on how it is reported. -/
  rejected : ∀ e, handled.result = .error e →
    response.status = e.status ∧ response.status ≤ 500
  crashed : ∀ c, handled.result = .crash c → response.status = 500
  grounds : ∀ pre x post, seen = pre ++ .logged x :: post → Grounds pre x.event

/-- What is recorded once the handler is done. -/
def ending (handled : Handled) : List Log.Record :=
  closing (statusOf handled.result) handled ++
    [⟨endEvent (statusOf handled.result), some handled.operation⟩]

theorem conclude_state (log : Log.Record → σ → σ) (id : String) (r : Request) (handled : Handled)
    (s : σ) :
    (conclude log id r handled s).2 = (ending handled).foldl (fun s x => log x s) s := by
  rcases handled with ⟨response | e | c, o⟩
  · rfl
  · rfl
  · rfl

theorem mem_ending {handled : Handled} {x : Log.Record} (h : x ∈ ending handled) :
    x.operation = some handled.operation ∧ x.event.message ∉ telling := by
  rcases List.mem_append.mp h with hclosing | hend
  · unfold closing at hclosing
    split at hclosing
    · cases hclosing
    · obtain rfl := List.mem_singleton.mp hclosing
      exact ⟨rfl, failureEvent_not_telling _ _⟩
    · obtain rfl := List.mem_singleton.mp hclosing
      exact ⟨rfl, failureEvent_not_telling _ _⟩
  · obtain rfl := List.mem_singleton.mp hend
    refine ⟨rfl, ?_⟩
    simp [endEvent, telling]

/-- What is observed of a request: its begin, the work for it, and what is recorded in the end. It is
answered as it is unobserved. -/
theorem App.observed_respond {app : App σ} (discreet : ∀ m, (app.emailer m).Tells Plain)
    (id : String) (r : Request) (s : σ) :
    let begun : Log.Record := ⟨beginEvent, some (operationOf r id)⟩
    let handled := (app.handler r (operationOf r id) (app.backend.log begun s)).1
    ∃ worked, app.observed.respond id r (s, []) =
        ((app.respond id r s).1, (app.respond id r s).2,
          .logged begun :: worked ++ (ending handled).map .logged) ∧
      handled.operation.id = id ∧ Told (Belongs id) [.logged begun] worked ∧
      ∀ records, app.backend.Logs records → records (app.respond id r s).2 =
        records s ++ (begun :: recordsOf worked ++ ending handled) := by
  intro begun handled
  obtain ⟨⟨worked, hhandler, told, grows⟩, ours⟩ := app.observed_handler
    (o := operationOf r id) discreet rfl r [.logged begun] (app.backend.log begun s)
  have hstate : (app.respond id r s).2 = (ending handled).foldl (fun s x => app.backend.log x s)
      (app.handler r (operationOf r id) (app.backend.log begun s)).2 := conclude_state _ _ _ _ _
  refine ⟨worked, ?_, ours, told, fun records hlogs => ?_⟩
  · have hobserved : app.observed.respond id r (s, []) =
        conclude app.backend.observed.log id r
          (app.observed.handler r (operationOf r id)
            (app.backend.log begun s, [.logged begun])).1
          (app.observed.handler r (operationOf r id)
            (app.backend.log begun s, [.logged begun])).2 := handle_eq _ _ _ _ _
    rw [hobserved, hhandler]
    refine Prod.ext ?_ ?_
    · rw [conclude_eq_render]
      exact (conclude_eq_render _ _ _ _ _).symm
    · rw [conclude_state, Backend.foldl_observed, hstate]
      rfl
  · rw [hstate, hlogs.foldl_log, grows records hlogs, hlogs.log]
    simp

/-- The log of a request begins with its begin and ends with its end, and all of it belongs to its
operation. Errors are reported once, just before the end. What is said to have happened has happened
just before. -/
theorem requests_leave_one_trace {app : App σ} (discreet : ∀ m, (app.emailer m).Tells Plain)
    (id : String) (r : Request) (s : σ) :
    let handled := (app.handler r (operationOf r id)
      (app.backend.log ⟨beginEvent, some (operationOf r id)⟩ s)).1
    ∃ seen, app.observed.respond id r (s, []) =
        ((app.respond id r s).1, (app.respond id r s).2, seen) ∧
      Trace id r handled (app.respond id r s).1 seen ∧
      ∀ records, app.backend.Logs records →
        records (app.respond id r s).2 = records s ++ recordsOf seen := by
  intro handled
  let begun : Log.Record := ⟨beginEvent, some (operationOf r id)⟩
  obtain ⟨worked, hobserved, ours, told, grows⟩ := App.observed_respond discreet id r s
  have hstatus : (app.respond id r s).1.status = statusOf handled.result :=
    status_conclude _ _ _ _ _
  have hrecords : recordsOf (.logged begun :: worked ++ (ending handled).map .logged) =
      begun :: recordsOf worked ++ ending handled := by
    rw [recordsOf_append, recordsOf_records]
    rfl
  refine ⟨_, hobserved, ?_, fun records hlogs => ?_⟩
  · refine ⟨⟨recordsOf worked, ?_, fun x hx => ?_⟩, fun x hx => ?_, fun e he => ?_, fun c hc => ?_, ?_⟩
    · rw [hrecords, hstatus, ending, ← List.append_assoc]
      rfl
    · obtain ⟨past, belongs⟩ := told.of_mem hx
      exact ⟨belongs.recorded, belongs.apart⟩
    · rw [hrecords] at hx
      rcases List.mem_append.mp hx with hx | hx
      · rcases List.mem_cons.mp hx with rfl | hx
        · exact ⟨_, rfl, rfl⟩
        · obtain ⟨past, belongs⟩ := told.of_mem hx
          exact belongs.operation
      · exact ⟨_, (mem_ending hx).1, ours⟩
    · have answered : (app.respond id r s).1.status = e.status := by rw [hstatus, he, statusOf]
      exact ⟨answered, answered ▸ e.status_le⟩
    · rw [hstatus, hc, statusOf]
    · have first : Told (fun past r => Grounds past r.event) [] [.logged begun] :=
        told_logged.mpr (.of_not_telling (show beginEvent.message ∉ telling by decide))
      have last : Told (fun past r => Grounds past r.event) ([.logged begun] ++ worked)
          ((ending handled).map .logged) :=
        told_records fun x hx past => .of_not_telling (mem_ending hx).2
      have all := told_append.mpr ⟨told_append.mpr ⟨first,
        told.mono fun past r belongs => belongs.grounds⟩, last⟩
      exact all
  · rw [grows records hlogs]
    exact congrArg (records s ++ ·) hrecords.symm

/-- A mail is refused, and then the rollback fails too. -/
theorem failed_rollback_is_recorded :
    let t : Tables :=
      ⟨[⟨⟨1⟩, "anna@example.com"⟩], [⟨⟨⟨1⟩, ⟨7⟩, "Hello", "World", .latest⟩, ⟨1⟩⟩], 1, 1⟩
    let r : Rehearsal :=
      { store := ⟨t, none, 0⟩, flags := { failRollback := true }
        faults := [⟨.deliver, 1, none, .refusal "mailbox full"⟩] }
    let request := posted "/api/messages/send" "[7]"
    let app : App Rehearsal := ⟨Rehearsal.backend, carrier, .ofSeconds 60, .latest⟩
    (app.respond "a" request r).2.log.map Log.Record.event =
      [{ level := .info, part := .requests, message := "begin processing request" },
        { level := .error, part := .transactions, message := "error rolling back transaction"
          fields := [("error", .text "rollback: connection reset")] },
        { level := .error, part := .failures, message := "error processing request"
          fields :=
            [("error", .text
              "error sending mailing entry 1 to customer 1: email delivery failed: mailbox full")] },
        { level := .info, part := .requests, message := "end processing request"
          fields := [("status", .whole 500)] }] ∧
    ∃ seen handled, Trace "a" request handled (app.respond "a" request r).1 seen ∧
      recordsOf seen = (app.respond "a" request r).2.log := by
  intro t r request app
  refine ⟨by decide +kernel, ?_⟩
  have discreet : ∀ m, (app.emailer m).Tells Plain := tells_delivery (.inl rfl)
  obtain ⟨seen, -, trace, grows⟩ := requests_leave_one_trace discreet "a" request r
  exact ⟨seen, _, trace, (grows Rehearsal.log Rehearsal.logs).symm⟩

end MailDispatch.Api
