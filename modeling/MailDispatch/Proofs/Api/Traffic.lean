import MailDispatch.Api.Messages
import MailDispatch.Cleanup.Job
import MailDispatch.Rehearsal.Basic
import MailDispatch.Proofs.Work.Keeping

/-! # Traffic

Requests and cleanups take turns at one store. What they do to it they do in
transactions, of which only one is open at a time, so it is the order of these that
matters. A request to send has two: once its purge is over, others may come first
before it sends.
-/
namespace MailDispatch.Api
open Http Mailing Service Store Time Work

variable {σ : Type}

/-! ## Handlers by their stages -/

/-- Goes on with the value of a stage. If it has failed or crashed, that is the result. -/
def andThen {α β : Type} (next : α → σ → Outcome Error β × σ) :
    Outcome Error α × σ → Outcome Error β × σ
  | (.value a, s) => next a s
  | (.error e, s) => (.error e, s)
  | (.crash c, s) => (.crash c, s)

section
variable {α β : Type} {next : α → σ → Outcome Error β × σ} {ran : Outcome Error α × σ}

theorem exists_of_andThen_value {b : β} (h : (andThen next ran).1 = .value b) :
    ∃ a s, (next a s).1 = .value b := by
  rcases ran with ⟨a | e | c, s⟩
  · exact ⟨a, s, h⟩
  · cases h
  · cases h

/-- What holds of the state after a stage and is kept by what comes next holds in the end. -/
theorem keeps_andThen {P : σ → Prop} (h : P ran.2) (hnext : ∀ a {s}, P s → P (next a s).2) :
    P (andThen next ran).2 := by
  rcases ran with ⟨a | e | c, s⟩
  · exact hnext a h
  · exact h
  · exact h

end

namespace App

variable (app : App σ) (r : Request) (o : Log.Operation) (s : σ)

theorem create_eq_andThen :
    app.create r o s =
      match readBody createRecord r with
      | .error e => (.error e, s)
      | .ok draft =>
        andThen (fun e s => (.value (countBody "id" e.id.val), s))
          (app.within o (Service.create draft) s) := by
  unfold create
  cases readBody createRecord r with
  | error e => rfl
  | ok draft =>
    dsimp only
    rcases app.within o (Service.create draft) s with ⟨e | e | c, s'⟩ <;> rfl

theorem remove_eq_andThen (segment : String) :
    app.remove segment o s =
      match Id.parse .mailingEntry segment with
      | .error r => (.error (.rejected r), s)
      | .ok id =>
        andThen (fun _ s => (.value (.empty 200), s)) (app.within o (Service.remove id) s) := by
  unfold remove
  cases Id.parse .mailingEntry segment with
  | error r => rfl
  | ok id =>
    dsimp only
    rcases app.within o (Service.remove id) s with ⟨u | e | c, s'⟩ <;> rfl

theorem sendPurged_eq_andThen (m : MailingId) :
    app.sendPurged m o s =
      andThen (fun (n : Nat) s =>
          (.value (countBody "sent" n), app.backend.log ⟨mailingSent m n, some o⟩ s))
        (app.within o (Service.sendMailing app.emailer m) s) := by
  unfold sendPurged
  rcases app.within o (Service.sendMailing app.emailer m) s with ⟨n | e | c, s'⟩ <;> rfl

theorem send_eq_andThen :
    app.send r o s =
      match readBody sendRecord r with
      | .error e => (.error e, s)
      | .ok request =>
        match request.target with
        | .error rejection => (.error (.rejected rejection), s)
        | .ok m =>
          andThen (fun n s =>
              app.sendPurged m o
                (if 0 < n then app.backend.log ⟨purgedFirst m n, some o⟩ s else s))
            (app.within o (Service.purgeMailing m app.now app.threshold) s) := by
  unfold send
  cases readBody sendRecord r with
  | error e => rfl
  | ok request =>
    dsimp only
    cases request.target with
    | error rejection => rfl
    | ok m =>
      dsimp only
      rcases app.within o (Service.purgeMailing m app.now app.threshold) s with ⟨n | e | c, s'⟩ <;>
        rfl

end App

/-! ## Requests by their turns -/

/-- A request to send whose purge is over. -/
structure Waiting where
  id : String
  request : Request
  operation : Log.Operation
  mailing : MailingId
  arrival : Timestamp

def conclude (log : Log.Record → σ → σ) (id : String) (r : Request) (handled : Handled) (s : σ) :
    Response × σ :=
  let operation := some handled.operation
  let (response, s) := match failureOf handled.result with
    | .ok response => (response, s)
    | .error e => (e.response id, log ⟨e.event, operation⟩ s)
  let s := log ⟨endEvent response.status, operation⟩ s
  (headOnly r { response with operationId := some id }, s)

theorem handle_eq (log : Log.Record → σ → σ) (h : Handler σ) (id : String) (r : Request) (s : σ) :
    handle log h id r s =
      conclude log id r (h r (operationOf r id) (log ⟨beginEvent, some (operationOf r id)⟩ s)).1
        (h r (operationOf r id) (log ⟨beginEvent, some (operationOf r id)⟩ s)).2 := rfl

namespace App

variable (app : App σ)

/-- The purge of a request to send: its mailing, or the result of the request if it ends here. -/
def purgeFirst (r : Request) (o : Log.Operation) (s : σ) :
    Except (Outcome Error Response) MailingId × σ :=
  match readBody sendRecord r with
  | .error e => (.error (.error e), s)
  | .ok request =>
    match request.target with
    | .error rejection => (.error (.error (.rejected rejection)), s)
    | .ok m =>
      match app.within o (Service.purgeMailing m app.now app.threshold) s with
      | (.value n, s) =>
        (.ok m, if 0 < n then app.backend.log ⟨purgedFirst m n, some o⟩ s else s)
      | (.error e, s) => (.error (.error e), s)
      | (.crash c, s) => (.error (.crash c), s)

theorem send_eq (r : Request) (o : Log.Operation) (s : σ) :
    app.send r o s =
      match app.purgeFirst r o s with
      | (.ok m, s) => app.sendPurged m o s
      | (.error result, s) => (result, s) := by
  unfold send purgeFirst
  cases readBody sendRecord r with
  | error e => rfl
  | ok request =>
    dsimp only
    cases request.target with
    | error rejection => rfl
    | ok m =>
      dsimp only
      rcases app.within o (Service.purgeMailing m app.now app.threshold) s with ⟨result, s'⟩
      cases result <;> rfl

/-- What becomes of a request before anybody else's turn: it is answered, or it waits to send. -/
def arrive (id : String) (r : Request) (s : σ) : (Response ⊕ Waiting) × σ :=
  let start := operationOf r id
  let s := app.backend.log ⟨beginEvent, some start⟩ s
  match route messageRoutes r with
  | .found .send _ =>
    let o := start.named "send mailing entries with mailing ID"
    match app.purgeFirst r o s with
    | (.ok m, s) => (.inr ⟨id, r, o, m, app.now⟩, s)
    | (.error result, s) =>
      let (response, s) := conclude app.backend.log id r ⟨result, o⟩ s
      (.inl response, s)
  | _ =>
    let (handled, s) := app.handler r start s
    let (response, s) := conclude app.backend.log id r handled s
    (.inl response, s)

def proceed (w : Waiting) (s : σ) : Response × σ :=
  let (result, s) := app.sendPurged w.mailing w.operation s
  conclude app.backend.log w.id w.request ⟨result, w.operation⟩ s

/-- A request that nobody comes between is answered as one. -/
theorem respond_eq (id : String) (r : Request) (s : σ) :
    app.respond id r s =
      match app.arrive id r s with
      | (.inl response, s) => (response, s)
      | (.inr w, s) => app.proceed w s := by
  simp only [respond, handle_eq, arrive]
  generalize app.backend.log ⟨beginEvent, some (operationOf r id)⟩ s = s
  cases hroute : route messageRoutes r with
  | unknown | notAllowed methods | badSegment name => rfl
  | found endpoint segments =>
    cases endpoint with
    | health | create | remove => rfl
    | send =>
      have hhandler : app.handler r (operationOf r id) s =
          (⟨(app.send r ((operationOf r id).named "send mailing entries with mailing ID") s).1,
            (operationOf r id).named "send mailing entries with mailing ID"⟩,
          (app.send r ((operationOf r id).named "send mailing entries with mailing ID") s).2) := by
        simp only [handler, hroute]
      rw [hhandler, send_eq]
      dsimp only
      generalize (operationOf r id).named "send mailing entries with mailing ID" = o
      rcases app.purgeFirst r o s with ⟨result | m, s'⟩ <;> rfl

end App

/-- A store that serves requests, and the requests that wait to send. -/
structure Traffic where
  rehearsal : Rehearsal := {}
  waiting : List Waiting := []

namespace Traffic

/-- What happens next: the faults change, a request arrives, one that waits goes on, or the
cleanup runs. -/
inductive Event where
  | configure (faults : Option (List Rehearsal.Fault)) (change : Rehearsal.FlagChange)
  | arrives (id : String) (r : Request) (now : Timestamp)
  | proceeds (place : Nat)
  | cleans (id : String) (now : Timestamp)

section
variable (emailer : Emailer) (threshold : Time.Span)

def app (now : Timestamp) : App Rehearsal := ⟨Rehearsal.backend, emailer, threshold, now⟩

def step (t : Traffic) : Event → Option Response × Traffic
  | .configure faults change => (none, { t with rehearsal := t.rehearsal.configure faults change })
  | .arrives id r now =>
    match (app emailer threshold now).arrive id r t.rehearsal with
    | (.inl response, rehearsal) => (some response, { t with rehearsal })
    | (.inr w, rehearsal) => (none, ⟨rehearsal, t.waiting ++ [w]⟩)
  | .proceeds place =>
    match t.waiting[place]? with
    | none => (none, t)
    | some w =>
      let (response, rehearsal) := (app emailer threshold w.arrival).proceed w t.rehearsal
      (some response, ⟨rehearsal, t.waiting.eraseIdx place⟩)
  | .cleans id now =>
    (none, { t with
      rehearsal := Cleanup.runOnce Rehearsal.backend id now threshold t.rehearsal })

def run (t : Traffic) : List Event → List (Option Response) × Traffic
  | [] => ([], t)
  | e :: es =>
    let (response, t) := step emailer threshold t e
    let (responses, t) := run t es
    (response :: responses, t)

end

end Traffic

/-! ## What traffic keeps -/

/-- All units of work of the service keep a property of the tables. -/
structure Keeping (emailer : Emailer) (P : Tables → Prop) : Prop where
  create : ∀ d, (Service.create d).Keeps P
  remove : ∀ id, (Service.remove id).Keeps P
  send : ∀ m, (sendMailing emailer m).Keeps P
  purge : ∀ now threshold, (Service.purge now threshold).Keeps P
  purgeMailing : ∀ m now threshold, (Service.purgeMailing m now threshold).Keeps P

/-- Logging and the transactions of the service keep a property of the state of a backend. -/
structure Steady (b : Backend σ) (emailer : Emailer) (P : σ → Prop) : Prop where
  log : ∀ r {s}, P s → P (b.log r s)
  create : ∀ d o {s}, P s → P (Transaction.within b o (Service.create d) s).2
  remove : ∀ id o {s}, P s → P (Transaction.within b o (Service.remove id) s).2
  send : ∀ m o {s}, P s → P (Transaction.within b o (sendMailing emailer m) s).2
  purge : ∀ now threshold o {s}, P s →
    P (Transaction.within b o (Service.purge now threshold) s).2
  purgeMailing : ∀ m now threshold o {s}, P s →
    P (Transaction.within b o (Service.purgeMailing m now threshold) s).2

theorem Keeping.steady {b : Backend σ} {scene : σ → Scene} (hb : b.Faithful scene)
    {emailer : Emailer} {P : Tables → Prop} (hk : Keeping emailer P) :
    Steady b emailer fun s => (scene s).Rests P where
  log r s h := by
    rw [hb.log]
    exact h
  create d o _ h := h.within hb (hk.create d) o
  remove id o _ h := h.within hb (hk.remove id) o
  send m o _ h := h.within hb (hk.send m) o
  purge now threshold o _ h := h.within hb (hk.purge now threshold) o
  purgeMailing m now threshold o _ h := h.within hb (hk.purgeMailing m now threshold) o

namespace Steady

section
variable {b : Backend σ} {emailer : Emailer} {P : σ → Prop} (steady : Steady b emailer P)
include steady

theorem conclude (id : String) (r : Request) (handled : Handled) {s : σ} (h : P s) :
    P (conclude b.log id r handled s).2 := by
  unfold Api.conclude
  cases failureOf handled.result with
  | ok response => exact steady.log _ h
  | error e => exact steady.log _ (steady.log _ h)

theorem report (name : String) (operation : Log.Operation) (result : Cleanup.Result) {s : σ}
    (h : P s) : P (Cleanup.report b.log name operation result s) := by
  unfold Cleanup.report
  split
  · exact steady.log _ h
  · exact h

theorem purgeOnce (operation : Log.Operation) (now : Timestamp) (threshold : Time.Span) {s : σ}
    (h : P s) : P (Cleanup.purgeOnce b operation now threshold s).2 := by
  unfold Cleanup.purgeOnce
  have hwithin := steady.purge now threshold (some operation) h
  dsimp only
  split
  · exact steady.log _ hwithin
  · exact hwithin

theorem runOnce (id : String) (now : Timestamp) (threshold : Time.Span) {s : σ} (h : P s) :
    P (Cleanup.runOnce b id now threshold s) :=
  steady.report _ _ _ (steady.purgeOnce _ now threshold h)

end

section
variable {app : App σ} {P : σ → Prop} (steady : Steady app.backend app.emailer P)
include steady

theorem creation (r : Request) (o : Log.Operation) {s : σ} (h : P s) :
    P (app.create r o s).2 := by
  rw [App.create_eq_andThen]
  cases readBody createRecord r with
  | error e => exact h
  | ok draft => exact keeps_andThen (steady.create draft (some o) h) fun _ _ h => h

theorem removal (segment : String) (o : Log.Operation) {s : σ} (h : P s) :
    P (app.remove segment o s).2 := by
  rw [App.remove_eq_andThen]
  cases Id.parse .mailingEntry segment with
  | error r => exact h
  | ok id => exact keeps_andThen (steady.remove id (some o) h) fun _ _ h => h

theorem sendPurged (m : MailingId) (o : Log.Operation) {s : σ} (h : P s) :
    P (app.sendPurged m o s).2 := by
  rw [App.sendPurged_eq_andThen]
  exact keeps_andThen (steady.send m (some o) h) fun _ _ h => steady.log _ h

theorem purgeFirst (r : Request) (o : Log.Operation) {s : σ} (h : P s) :
    P (app.purgeFirst r o s).2 := by
  unfold App.purgeFirst
  cases readBody sendRecord r with
  | error e => exact h
  | ok request =>
    dsimp only
    cases request.target with
    | error rejection => exact h
    | ok m =>
      have hwithin : P (app.within o (Service.purgeMailing m app.now app.threshold) s).2 :=
        steady.purgeMailing m app.now app.threshold (some o) h
      dsimp only
      generalize app.within o (Service.purgeMailing m app.now app.threshold) s = ran at hwithin ⊢
      rcases ran with ⟨n | e | c, s'⟩
      · dsimp only
        split
        · exact steady.log _ hwithin
        · exact hwithin
      · exact hwithin
      · exact hwithin

theorem arrive (id : String) (r : Request) {s : σ} (h : P s) : P (app.arrive id r s).2 := by
  unfold App.arrive
  -- Only a request to send leaves something for later; all others run to their end here.
  have hlogged := steady.log ⟨beginEvent, some (operationOf r id)⟩ h
  dsimp only
  generalize app.backend.log ⟨beginEvent, some (operationOf r id)⟩ s = s at hlogged ⊢
  cases hroute : route messageRoutes r with
  | unknown | notAllowed methods | badSegment name =>
    simp only [App.handler, hroute]
    exact steady.conclude id r _ hlogged
  | found endpoint segments =>
    cases endpoint with
    | health =>
      simp only [App.handler, hroute]
      exact steady.conclude id r _ hlogged
    | create =>
      simp only [App.handler, hroute]
      exact steady.conclude id r _ (steady.creation r _ hlogged)
    | remove =>
      simp only [App.handler, hroute]
      exact steady.conclude id r _ (steady.removal _ _ hlogged)
    | send =>
      have hpurged := steady.purgeFirst r
        ((operationOf r id).named "send mailing entries with mailing ID") hlogged
      dsimp only
      generalize app.purgeFirst r _ s = ran at hpurged ⊢
      rcases ran with ⟨result | m, s'⟩
      · exact steady.conclude id r _ hpurged
      · exact hpurged

theorem proceed (w : Waiting) {s : σ} (h : P s) : P (app.proceed w s).2 :=
  steady.conclude w.id w.request _ (steady.sendPurged w.mailing w.operation h)

end

end Steady

theorem App.rests_within {app : App σ} {scene : σ → Scene} {P : Tables → Prop}
    (hb : app.backend.Faithful scene) {α : Type} {w : Work Failure α} (hw : w.Keeps P)
    (o : Log.Operation) {s : σ} (h : (scene s).Rests P) :
    (scene (app.within o w s).2).Rests P :=
  h.within hb hw (some o)

namespace Traffic

variable {emailer : Emailer} (threshold : Time.Span)

section
variable {P : Rehearsal → Prop} (steady : Steady Rehearsal.backend emailer P)
include steady

theorem steady_step {t : Traffic} {e : Event} (configured : ∀ faults change,
      e = .configure faults change → ∀ {r}, P r → P (r.configure faults change))
    (h : P t.rehearsal) : P (step emailer threshold t e).2.rehearsal := by
  cases e with
  | configure faults change => exact configured faults change rfl h
  | arrives id r now =>
    have hsteady : Steady (app emailer threshold now).backend emailer P := steady
    have harrived := hsteady.arrive id r h
    simp only [step]
    generalize (app emailer threshold now).arrive id r t.rehearsal = ran at harrived ⊢
    rcases ran with ⟨response | w, rehearsal⟩ <;> exact harrived
  | proceeds place =>
    simp only [step]
    cases t.waiting[place]? with
    | none => exact h
    | some w =>
      have hsteady : Steady (app emailer threshold w.arrival).backend emailer P := steady
      exact hsteady.proceed w h
  | cleans id now => exact steady.runOnce id now threshold h

/-- What every transaction keeps is kept by traffic, in whatever order it comes, if the changes of
faults in it keep it. -/
theorem steady_along {es : List Event} (configured : ∀ faults change,
      .configure faults change ∈ es → ∀ {r}, P r → P (r.configure faults change)) {t : Traffic}
    (h : P t.rehearsal) : P (run emailer threshold t es).2.rehearsal := by
  induction es generalizing t with
  | nil => exact h
  | cons e es ih =>
    apply ih fun faults change he => configured faults change (List.mem_cons_of_mem e he)
    refine steady_step threshold steady (fun faults change he => ?_) h
    exact configured faults change (by rw [he]; exact List.mem_cons_self)

/-- What every transaction keeps is kept by traffic, whatever fails in it. -/
theorem steady_run (configured : ∀ faults change {r}, P r → P (r.configure faults change))
    (es : List Event) {t : Traffic} (h : P t.rehearsal) :
    P (run emailer threshold t es).2.rehearsal :=
  steady_along threshold steady (fun faults change _ => configured faults change) h

end

/-- New faults and flags leave the store and the mail alone. -/
theorem scene_configure (faults : Option (List Rehearsal.Fault)) (change : Rehearsal.FlagChange)
    (r : Rehearsal) : (r.configure faults change).scene = r.scene := by
  cases faults <;> rfl

section
variable {P : Tables → Prop}

theorem faithful_app (emailer : Emailer) (now : Timestamp) :
    (app emailer threshold now).backend.Faithful Rehearsal.scene :=
  Rehearsal.faithful

theorem rests_empty (h : P .empty) : ({} : Traffic).rehearsal.scene.Rests P := ⟨rfl, h⟩

theorem rests_configure (faults : Option (List Rehearsal.Fault)) (change : Rehearsal.FlagChange)
    {r : Rehearsal} (h : r.scene.Rests P) : (r.configure faults change).scene.Rests P := by
  rw [scene_configure]
  exact h

theorem rests_step (hk : Keeping emailer P) {t : Traffic} (e : Event)
    (h : t.rehearsal.scene.Rests P) : (step emailer threshold t e).2.rehearsal.scene.Rests P :=
  steady_step threshold (hk.steady Rehearsal.faithful)
    (fun faults change _ => rests_configure faults change) h

theorem rests_run (hk : Keeping emailer P) (es : List Event) {t : Traffic}
    (h : t.rehearsal.scene.Rests P) : (run emailer threshold t es).2.rehearsal.scene.Rests P :=
  steady_run threshold (hk.steady Rehearsal.faithful) rests_configure es h

end

end Traffic

end MailDispatch.Api
