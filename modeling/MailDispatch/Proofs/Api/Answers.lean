import MailDispatch.Proofs.Api.Traffic
import MailDispatch.Proofs.Text.Digits
import MailDispatch.Proofs.Service.Delivery
import MailDispatch.Proofs.Work.Upshot

/-! # Answers and what they tell

The status of an answer tells what became of the transaction behind it: a failure inside, of
the transaction itself or a crash is answered with 500, and nothing is committed then.
-/
namespace MailDispatch.Api
open Http Mailing Service Store Time Work

variable {σ α : Type}

/-! ## What a request asks for -/

/-- The mailing that a request asks to send, if it names one. -/
def mailingToSend? (r : Request) : Option MailingId :=
  match route messageRoutes r, readBody sendRecord r with
  | .found .send _, .ok request => request.target.toOption
  | _, _ => none

/-- The entry that a request asks to remove, if it names one. -/
def entryToRemove? (r : Request) : Option MailingEntryId :=
  match route messageRoutes r with
  | .found .remove segments => (Id.parse .mailingEntry (segments.headD "")).toOption
  | _ => none

theorem mailingToSend?_eq_some {r : Request} {m : MailingId} (h : mailingToSend? r = some m) :
    (∃ segments, route messageRoutes r = .found .send segments) ∧
      ∃ request, readBody sendRecord r = .ok request ∧ request.target = .ok m := by
  unfold mailingToSend? at h
  split at h
  · next segments request hroute hread =>
    exact ⟨⟨segments, hroute⟩, request, hread, toOption_eq_some_iff.mp h⟩
  · cases h

/-- An endpoint that is found is that of a route whose pattern the path matches, and whose holes it
fills with texts. -/
theorem exists_of_route_found {routes : List (Route α)} {r : Request} {endpoint : α}
    {segments : List String} (h : route routes r = .found endpoint segments) :
    ∃ q ∈ routes, q.endpoint = endpoint ∧ r.method ∈ q.methods ∧
      ∃ pieces holes, r.target.segments = some pieces ∧ matchPath q.pattern pieces = some holes ∧
        decodeSegments holes = .ok segments := by
  induction routes with
  | nil => cases h
  | cons q routes ih =>
    unfold route at h
    split at h
    · obtain ⟨q', hq', hfound⟩ := ih h
      exact ⟨q', List.mem_cons_of_mem q hq', hfound⟩
    · next holes hmatch =>
      split at h
      · next hmethod =>
        split at h
        · next texts htexts =>
          obtain ⟨rfl, rfl⟩ := Routed.found.inj h
          obtain ⟨pieces, hpieces, hholes⟩ := Option.bind_eq_some_iff.mp hmatch
          exact ⟨q, List.mem_cons_self, rfl, List.contains_iff_mem.mp hmethod, pieces, holes,
            hpieces, hholes, htexts⟩
        · cases h
      · cases h

/-- The methods that reach an endpoint. -/
def Endpoint.methods : Endpoint → List String
  | .health => ["GET", "HEAD"]
  | .create | .send => ["POST"]
  | .remove => ["DELETE"]

theorem method_of_route {r : Request} {endpoint : Endpoint} {segments : List String}
    (h : route messageRoutes r = .found endpoint segments) : r.method ∈ endpoint.methods := by
  obtain ⟨q, hq, rfl, hmethod, -⟩ := exists_of_route_found h
  have hmethods : ∀ q ∈ messageRoutes, q.methods = q.endpoint.methods := by decide
  rwa [hmethods q hq] at hmethod

/-! ## How a request ends -/

/-- Something went wrong inside. -/
def Broken : Outcome Error α → Prop
  | .value _ => False
  | .error e => e.status = 500
  | .crash _ => True

def statusOf : Outcome Error Response → Nat
  | .value r => r.status
  | .error e => e.status
  | .crash _ => 500

theorem Broken.statusOf_eq {o : Outcome Error Response} (h : Broken o) : statusOf o = 500 := by
  cases o with
  | value r => exact h.elim
  | error e => exact h
  | crash x => rfl

theorem status_ofFailure {f : Failure} (h : f.Internal) : (Error.ofFailure f).status = 500 := by
  cases f with
  | rejected r => exact h.elim
  | store step p => rfl
  | delivery step message => rfl

section
variable (log : Log.Record → σ → σ) (id : String) (r : Request) (handled : Handled) (s : σ)

theorem status_conclude : (conclude log id r handled s).1.status = statusOf handled.result := by
  have hhead : ∀ response : Response, (headOnly r response).status = response.status := by
    intro response
    unfold headOnly
    split <;> rfl
  cases h : handled.result <;> simp only [conclude, failureOf, h, hhead] <;> rfl

/-- All that is done at the end of a request is to log it. -/
theorem exists_records_conclude :
    ∃ records : List Log.Record,
      (conclude log id r handled s).2 = records.foldl (fun s x => log x s) s := by
  unfold conclude
  cases failureOf handled.result with
  | ok response =>
    exact ⟨[⟨endEvent response.status, some handled.operation⟩], rfl⟩
  | error e =>
    exact ⟨[⟨e.event, some handled.operation⟩,
      ⟨endEvent (e.response id).status, some handled.operation⟩], rfl⟩

theorem conclude_value {response : Response} {o : Log.Operation} (hhead : r.method ≠ "HEAD") :
    (conclude log id r ⟨.value response, o⟩ s).1 = { response with operationId := some id } :=
  if_neg hhead

end

theorem scene_conclude {b : Backend σ} {scene : σ → Scene} (hb : b.Faithful scene) (id : String)
    (r : Request) (handled : Handled) (s : σ) :
    scene (conclude b.log id r handled s).2 = scene s := by
  obtain ⟨records, hlogged⟩ := exists_records_conclude b.log id r handled s
  rw [hlogged]
  exact hb.foldl_log records s

/-! ## The transactions of a request -/

/-- What becomes of work that sends nothing. -/
inductive Quiet (V : α → Tables → Prop) (scene : Scene) : Outcome Error α → Scene → Prop where
  | value {a : α} {u : Tables} (h : V a u) :
    Quiet V scene (.value a) ⟨⟨u, none, scene.store.next + 1⟩, scene.outbox⟩
  | broken {o : Outcome Error α} {next : Nat} (ho : Broken o)
    (hnext : next ≤ scene.store.next + 1) :
    Quiet V scene o ⟨⟨scene.store.committed, none, next⟩, scene.outbox⟩

/-- What becomes of the part of a request that sends a mailing. -/
inductive Sends (m : MailingId) (scene : Scene) : Outcome Error Response → Scene → Prop where
  | all {next : Nat} {out : List Mail}
    (h : scene.store.committed.Delivers
      (scene.store.committed.entries.filter fun e => e.mailing == m) scene.outbox out) :
    Sends m scene
      (.value (countBody "sent" (scene.store.committed.entries.filter fun e => e.mailing == m).length))
      ⟨⟨{ scene.store.committed with
          entries := scene.store.committed.entries.filter fun e => e.mailing != m }, none, next⟩, out⟩
  | nothing {e : Error} {next : Nat} (he : e.status = 404)
    (hnone : (scene.store.committed.entries.filter fun e => e.mailing == m) = []) :
    Sends m scene (.error e) ⟨⟨scene.store.committed, none, next⟩, scene.outbox⟩
  | broken {o : Outcome Error Response} {fs : List Entry} {next : Nat} {out : List Mail}
    (ho : Broken o) (hfs : fs <+: scene.store.committed.entries.filter fun e => e.mailing == m)
    (h : scene.store.committed.Delivers fs scene.outbox out) :
    Sends m scene o ⟨⟨scene.store.committed, none, next⟩, out⟩

section
variable {app : App σ} {scene : σ → Scene} {s : σ}

theorem eq_of_closed {scene : Scene} (h : scene.store.opened = none) :
    scene = ⟨⟨scene.store.committed, none, scene.store.next⟩, scene.outbox⟩ := by
  rw [← h]

theorem quiet_within (hb : app.backend.Faithful scene) (hclosed : (scene s).store.opened = none)
    {w : Work Failure α} {V : α → Tables → Prop}
    (hw : w.Ensures (Quietly (scene s).outbox V) (scene s).store.committed (scene s).outbox)
    (o : Log.Operation) :
    Quiet V (scene s) (app.within o w s).1 (scene (app.within o w s).2) := by
  have hupshot := Transaction.upshot_within hb (some o) hw
  simp only [App.within]
  generalize (Transaction.within app.backend (some o) w s).1 = ended at hupshot ⊢
  generalize scene (Transaction.within app.backend (some o) w s).2 = scene' at hupshot ⊢
  cases hupshot with
  | notBegun p =>
    rw [eq_of_closed hclosed]
    exact .broken rfl (Nat.le_succ _)
  | committed h =>
    obtain ⟨hV, rfl⟩ := h
    exact .value hV
  | notCommitted p h =>
    obtain ⟨-, rfl⟩ := h
    exact .broken rfl (Nat.le_refl _)
  | failed h =>
    obtain ⟨hf, rfl⟩ := h
    exact .broken (status_ofFailure hf) (Nat.le_refl _)
  | crashed h =>
    obtain rfl : _ = (scene s).outbox := h
    exact .broken trivial (Nat.le_refl _)

theorem sends_sendPurged (hb : app.backend.Faithful scene) (hcarrier : app.emailer = carrier)
    (hclosed : (scene s).store.opened = none) (hsound : (scene s).store.committed.Sound)
    (m : MailingId) (o : Log.Operation) :
    Sends m (scene s) (app.sendPurged m o s).1 (scene (app.sendPurged m o s).2) := by
  have hsending : (sendMailing carrier m).Ensures
      (Sending (scene s).store.committed
        ((scene s).store.committed.entries.filter fun e => e.mailing == m) (scene s).outbox)
      (scene s).store.committed (scene s).outbox :=
    sending_sendMailing m
  have hupshot := Transaction.upshot_within hb (some o) hsending
  simp only [App.sendPurged, App.within, hcarrier]
  generalize Transaction.within app.backend (some o) (sendMailing carrier m) s = ran at hupshot ⊢
  obtain ⟨ended, s'⟩ := ran
  dsimp only at hupshot ⊢
  generalize hscene' : scene s' = scene' at hupshot
  cases hupshot with
  | notBegun p =>
    rw [ofEnded, hscene', eq_of_closed hclosed]
    exact .broken rfl List.nil_prefix (Tables.delivers_nil _ _)
  | @committed n t out h =>
    obtain ⟨rfl, rfl, hsent⟩ := h
    rw [ofEnded, hb.log, hscene', hsound.without_filter]
    exact .all hsent
  | notCommitted p h =>
    rw [ofEnded, hscene']
    exact .broken rfl List.prefix_rfl h.2.2
  | failed h =>
    rw [ofEnded, hscene']
    rcases h with ⟨⟨message, rfl⟩, hnone, rfl⟩ | ⟨hf, fs, hfs, hsent⟩
    · exact .nothing rfl hnone
    · exact .broken (status_ofFailure hf) hfs hsent
  | crashed h =>
    obtain ⟨fs, hfs, hsent⟩ := h
    rw [ofEnded, hscene']
    exact .broken trivial hfs hsent

end

end MailDispatch.Api
