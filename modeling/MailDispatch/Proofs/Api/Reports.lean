import MailDispatch.Proofs.Api.Answers
import MailDispatch.Proofs.Json.Objects

/-! # Reports of failures

Whatever a handler ends with, its error becomes an object with the status, a message and the
name of the operation. Only what never reaches a handler is answered otherwise: a segment
whose octets spell no text is refused by the router, in words of its own.
-/
namespace MailDispatch.Api
open Text Json Http Mailing Service Work

variable {σ : Type}

/-! ## The format -/

def errorShape : Shape :=
  ⟨"ErrorBody",
    [required "status" .whole, required "message" .text, required "operationId" .text]⟩

/-- The body of the response is the object of an error, with its own status and the operation
that it names in its header. -/
def Reports (response : Response) : Prop :=
  ∃ message id, response.operationId = some id ∧
    response.contentType = some "application/json" ∧
    response.body =
      String.ofList (errorShape.written [.whole response.status, .text message, .text id]) ∧
    errorShape.readEntire (Octets.ofChars response.body.toList) =
      .ok [.whole response.status, .text message, .text id]

theorem Error.body_eq (e : Error) (id : String) :
    e.body id = errorShape.written [.whole e.status, .text e.clientMessage, .text id] := rfl

theorem Error.status_lt (e : Error) : e.status < 1000 := by
  unfold Error.status
  split <;> decide

theorem errorShape_fits {status : Nat} (h : status < 1000) (message id : String) :
    errorShape.Fits [.whole status, .text message, .text id] := by
  have hstatus : Kind.whole.Holds (.whole status) := by
    change (-9223372036854775808 : Int) ≤ status ∧ (status : Int) ≤ 9223372036854775807
    omega
  exact .cons hstatus (.cons trivial (.cons trivial .nil))

theorem reports_response (e : Error) (id : String) :
    Reports { e.response id with operationId := some id } := by
  have hkeys : (errorShape.fields.map Field.key).Nodup := by decide
  have hread := Shape.readEntire_written hkeys (errorShape_fits e.status_lt e.clientMessage id)
  refine ⟨e.clientMessage, id, rfl, rfl, rfl, ?_⟩
  change errorShape.readEntire (Octets.ofChars (String.ofList (e.body id)).toList) = _
  rw [String.toList_ofList, Error.body_eq]
  exact hread

section
variable (log : Log.Record → σ → σ) (id : String) (r : Request) (handled : Handled) (s : σ)

theorem operationId_conclude : (conclude log id r handled s).1.operationId = some id := by
  have hhead : ∀ response : Response, (headOnly r response).operationId = response.operationId := by
    intro response
    unfold headOnly
    split <;> rfl
  exact hhead _

theorem reports_conclude {r : Request} {handled : Handled} (hhead : r.method ≠ "HEAD")
    (hvalue : ∀ response, handled.result = .value response → response.status < 400)
    (h : 400 ≤ (conclude log id r handled s).1.status) :
    Reports (conclude log id r handled s).1 := by
  have herror : ∀ e, failureOf handled.result = .error e →
      (conclude log id r handled s).1 = { e.response id with operationId := some id } := by
    intro e he
    simp only [conclude, he]
    exact if_neg hhead
  rw [status_conclude] at h
  cases hresult : handled.result with
  | value response =>
    rw [hresult] at h
    exact absurd (hvalue response hresult) (Nat.not_lt.mpr h)
  | error e =>
    rw [herror e (by rw [hresult, failureOf])]
    exact reports_response e id
  | crash c =>
    rw [herror (.crashed c.message) (by rw [hresult, failureOf])]
    exact reports_response _ id

end

/-! ## Requests for messages -/

/-- The requests that the routes of messages take, by their method and their path. No segment
is empty, and the one that stands for the sending of a mailing names no entry. -/
inductive ForMessages (r : Request) : Prop where
  | create (hmethod : r.method = "POST") (hpath : r.target.path = "/api/messages")
  | send (hmethod : r.method = "POST") (hpath : r.target.path = "/api/messages/send")
  | remove {segment : String} (hmethod : r.method = "DELETE")
      (hpath : r.target.path = "/api/messages/" ++ segment) (hslash : '/' ∉ segment.toList)
      (hempty : segment ≠ "") (hsend : segment ≠ "send")

/-- The segment that should name an entry spells no text. -/
def Misspelt (r : Request) : Prop :=
  r.method = "DELETE" ∧
    ∃ segment, r.target.path = "/api/messages/" ++ segment ∧ segmentText? segment = none

theorem segment_inj {a b : String} (h : "/api/messages/" ++ a = "/api/messages/" ++ b) : a = b := by
  have hlists := congrArg String.toList h
  rw [String.toList_append, String.toList_append] at hlists
  exact String.toList_inj.mp (List.append_cancel_left hlists)

theorem segments_messages {t : Target} {segment : String}
    (hpath : t.path = "/api/messages/" ++ segment) (hslash : '/' ∉ segment.toList) :
    t.segments = some ["api", "messages", segment] := by
  have hsplit : split '/' ("api/messages/".toList ++ segment.toList) =
      ["api".toList, "messages".toList, segment.toList] := by
    change split '/' ("api".toList ++ '/' :: ("messages".toList ++ '/' :: segment.toList)) = _
    rw [split_append_sep (by decide), split_append_sep (by decide), split_of_not_mem hslash]
  have hlist : t.path.toList = '/' :: ("api/messages/".toList ++ segment.toList) := by
    rw [hpath, String.toList_append]
    rfl
  simp only [Target.segments, hlist, hsplit, List.map_cons, List.map_nil, String.ofList_toList]

section
variable {r : Request}

theorem route_create (hmethod : r.method = "POST") (hpath : r.target.path = "/api/messages") :
    route messageRoutes r = .found .create [] := by
  have hsegments : r.target.segments = some ["api", "messages"] := by
    simp only [Target.segments, hpath]
    decide
  simp only [route, messageRoutes, hsegments, Option.bind_some, hmethod]
  rfl

theorem route_send (hmethod : r.method = "POST") (hpath : r.target.path = "/api/messages/send") :
    route messageRoutes r = .found .send [] := by
  have hsegments : r.target.segments = some ["api", "messages", "send"] :=
    segments_messages hpath (by decide)
  simp only [route, messageRoutes, hsegments, Option.bind_some, hmethod]
  rfl

theorem route_remove (hmethod : r.method = "DELETE") {segment : String}
    (hpath : r.target.path = "/api/messages/" ++ segment) (hslash : '/' ∉ segment.toList)
    (hempty : segment ≠ "") (hsend : segment ≠ "send") :
    route messageRoutes r =
      match segmentText? segment with
      | some t => .found .remove [t]
      | none => .badSegment "id" := by
  have hsegments := segments_messages hpath hslash
  have hcreate : matchPath [.text "api", .text "messages"] ["api", "messages", segment] = none := rfl
  have hother : matchPath [.text "api", .text "messages", .text "send"]
      ["api", "messages", segment] = none := if_neg hsend.symm
  have hmatch : matchPath [.text "api", .text "messages", .hole "id"]
      ["api", "messages", segment] = some [("id", segment)] := by
    have hfull : ¬ (segment.isEmpty && List.isEmpty ([] : List String)) = true := by simpa using hempty
    simp only [matchPath, if_true, if_neg hfull]
    rfl
  have hhealth : matchPath [.text "health"] ["api", "messages", segment] = none := rfl
  simp only [route, messageRoutes, hsegments, Option.bind_some, hhealth, hcreate, hother, hmatch,
    hmethod, decodeSegments]
  cases segmentText? segment <;> rfl

end

/-! ## The answers of the handlers -/

section
variable (app : App σ) (r : Request) (o : Log.Operation) (s : σ) {response : Response}

/-- A handler that has a response of its own to give has done what it was asked. -/
theorem status_create (h : (app.create r o s).1 = .value response) : response.status = 200 := by
  rw [App.create_eq_andThen] at h
  split at h
  · cases h
  · obtain ⟨e, s', hvalue⟩ := exists_of_andThen_value h
    rw [← Outcome.value.inj hvalue]
    rfl

theorem status_remove (segment : String) (h : (app.remove segment o s).1 = .value response) :
    response.status = 200 := by
  rw [App.remove_eq_andThen] at h
  split at h
  · cases h
  · obtain ⟨u, s', hvalue⟩ := exists_of_andThen_value h
    rw [← Outcome.value.inj hvalue]
    rfl

theorem status_sendPurged (m : MailingId) (h : (app.sendPurged m o s).1 = .value response) :
    response.status = 200 := by
  rw [App.sendPurged_eq_andThen] at h
  obtain ⟨n, s', hvalue⟩ := exists_of_andThen_value h
  rw [← Outcome.value.inj hvalue]
  rfl

theorem status_send (h : (app.send r o s).1 = .value response) : response.status = 200 := by
  rw [App.send_eq_andThen] at h
  split at h
  · cases h
  · split at h
    · cases h
    · obtain ⟨n, s', hvalue⟩ := exists_of_andThen_value h
      exact status_sendPurged app o _ _ hvalue

end

/-- What the handler leaves of a request for messages, apart from one that is misspelt. -/
theorem status_handler (app : App σ) {r : Request} (h : ForMessages r) (hspelt : ¬ Misspelt r)
    (o : Log.Operation) (s : σ) {response : Response}
    (hvalue : (app.handler r o s).1.result = .value response) : response.status = 200 := by
  cases h with
  | create hmethod hpath =>
    simp only [App.handler, route_create hmethod hpath] at hvalue
    exact status_create app r _ s hvalue
  | send hmethod hpath =>
    simp only [App.handler, route_send hmethod hpath] at hvalue
    exact status_send app r _ s hvalue
  | @remove segment hmethod hpath hslash hempty hsend =>
    cases htext : segmentText? segment with
    | none => exact absurd ⟨hmethod, segment, hpath, htext⟩ hspelt
    | some t =>
      have hroute := route_remove hmethod hpath hslash hempty hsend
      rw [htext] at hroute
      simp only [App.handler, hroute] at hvalue
      exact status_remove app _ s _ hvalue

theorem ForMessages.method_ne_head {r : Request} (h : ForMessages r) : r.method ≠ "HEAD" := by
  cases h with
  | create hmethod _ | send hmethod _ | remove hmethod _ _ _ _ =>
    rw [hmethod]
    decide

theorem ForMessages.route_misspelt {r : Request} (h : ForMessages r) (hspelt : Misspelt r) :
    route messageRoutes r = .badSegment "id" := by
  obtain ⟨hdelete, other, hother, htext⟩ := hspelt
  cases h with
  | create hmethod _ | send hmethod _ =>
    rw [hmethod] at hdelete
    exact absurd hdelete (by decide)
  | @remove segment hmethod hpath hslash hempty hsend =>
    obtain rfl : segment = other := segment_inj (hpath.symm.trans hother)
    rw [route_remove hmethod hpath hslash hempty hsend, htext]

/-- Whatever the store, its faults and the emailer do, every request for messages is answered
with the name of its operation, and a failure with the object of an error. A segment that
spells no text is answered by the router: it says what is wrong in plain words. -/
theorem failures_are_reported (app : App σ) (id : String) {r : Request} (h : ForMessages r) (s : σ) :
    (app.respond id r s).1.operationId = some id ∧
    (¬ Misspelt r → 400 ≤ (app.respond id r s).1.status → Reports (app.respond id r s).1) ∧
    (Misspelt r → (app.respond id r s).1 =
      { Response.plain "Invalid URL: Invalid UTF-8 in \x60id\x60" with
        status := 400, operationId := some id }) := by
  have hhead := h.method_ne_head
  rw [App.respond, handle_eq]
  refine ⟨operationId_conclude _ _ _ _ _, ?_, ?_⟩
  · intro hspelt
    refine reports_conclude _ _ _ hhead fun response hvalue => ?_
    rw [status_handler app h hspelt _ _ hvalue]
    decide
  · intro hspelt
    have hroute := h.route_misspelt hspelt
    simp only [App.handler, hroute]
    exact conclude_value _ _ _ _ hhead

/-- An application on an empty store without faults. -/
def rehearsedApp : App Rehearsal := ⟨Rehearsal.backend, carrier, .ofMillis 1000, .earliest⟩

def deletion (segment : String) : Request :=
  ⟨"DELETE", ⟨"", "/api/messages/" ++ segment, none⟩, [], [], none⟩

theorem forMessages_deletion {segment : String} (hslash : '/' ∉ segment.toList)
    (hempty : segment ≠ "") (hsend : segment ≠ "send") : ForMessages (deletion segment) :=
  .remove rfl rfl hslash hempty hsend

theorem failures_are_reported_for_two_segments :
    Reports (rehearsedApp.respond "0123456789" (deletion "x") {}).1 ∧
    (rehearsedApp.respond "0123456789" (deletion "%FF") {}).1 =
      { Response.plain "Invalid URL: Invalid UTF-8 in \x60id\x60" with
        status := 400, operationId := some "0123456789" } := by
  have hfor : ForMessages (deletion "x") :=
    forMessages_deletion (by decide) (by decide) (by decide)
  have hfor' : ForMessages (deletion "%FF") :=
    forMessages_deletion (by decide) (by decide) (by decide)
  have hspelt : ¬ Misspelt (deletion "x") := by
    rintro ⟨-, segment, hpath, htext⟩
    obtain rfl : "x" = segment := segment_inj hpath
    exact absurd htext (by decide +kernel)
  have hmisspelt : Misspelt (deletion "%FF") := ⟨rfl, "%FF", rfl, by decide +kernel⟩
  have hreported := failures_are_reported rehearsedApp "0123456789" hfor {}
  have hrefused := failures_are_reported rehearsedApp "0123456789" hfor' {}
  exact ⟨hreported.2.1 hspelt (by decide +kernel), hrefused.2.2 hmisspelt⟩

/-- The refusal of a segment that spells no text has no object in its body. -/
theorem refusal_of_a_misspelt_segment_is_no_report :
    ForMessages (deletion "%FF") ∧
    400 ≤ (rehearsedApp.respond "0123456789" (deletion "%FF") {}).1.status ∧
    ¬ Reports (rehearsedApp.respond "0123456789" (deletion "%FF") {}).1 := by
  have htype : (rehearsedApp.respond "0123456789" (deletion "%FF") {}).1.contentType =
      some "text/plain; charset=utf-8" := by decide +kernel
  have hfor : ForMessages (deletion "%FF") :=
    forMessages_deletion (by decide) (by decide) (by decide)
  refine ⟨hfor, by decide +kernel, ?_⟩
  rintro ⟨message, id, -, hjson, -⟩
  rw [htype] at hjson
  exact absurd hjson (by decide)

end MailDispatch.Api
