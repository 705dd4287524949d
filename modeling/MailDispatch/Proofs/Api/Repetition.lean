import MailDispatch.Proofs.Api.Noninterference
import MailDispatch.Proofs.Api.Tidiness
import MailDispatch.Proofs.Service.Entering

/-! # Creations that are repeated

While nothing goes wrong, a request to create an entry leaves an entry like its draft stored, its
own or one that was there before. Whatever comes then, as long as that entry and its customer stay,
every other request for the same draft is refused and changes nothing.
-/
namespace MailDispatch
open Store Mailing Service Work Time

theorem Store.Tables.Enters.holds {t u : Tables} {d : Draft} {e : Entry} (h : t.Enters d e u) :
    u.Holds d := by
  have hmem : e ∈ u.entries := by
    rw [h.entries]
    exact List.mem_append_right _ List.mem_cons_self
  have hcontent : e.toNewEntry = d.entryFor e.customer := by
    rw [Draft.entryFor, ← h.mailing, ← h.title, ← h.content, ← h.insertTime]
  by_cases hknown : ∃ c ∈ t.customers, c.email = d.email
  · obtain ⟨c, hc, hemail⟩ := hknown
    obtain ⟨hcustomer, hsame, -⟩ := h.known c hc hemail
    refine ⟨c, by rw [hsame]; exact hc, hemail, e, hmem, ?_⟩
    rw [← hcustomer]
    exact hcontent
  · have hunknown : ∀ c ∈ t.customers, c.email ≠ d.email := fun c hc hemail =>
      hknown ⟨c, hc, hemail⟩
    obtain ⟨c, hcustomers, hemail, hcustomer, -⟩ := h.unknown hunknown
    refine ⟨c, ?_, hemail, e, hmem, ?_⟩
    · rw [hcustomers]
      exact List.mem_append_right _ List.mem_cons_self
    · rw [← hcustomer]
      exact hcontent

namespace Api
open Http Json

variable {σ : Type}

/-- A request that is routed to the creation of an entry, with a document that is not too long. -/
structure Creates (r : Request) : Prop where
  routed : ∃ segments, route messageRoutes r = .found .create segments
  document : r.hasDocument = true
  fits : r.body.length ≤ bodyLimit

theorem Creates.readBody_eq {r : Request} (h : Creates r) {d : Draft}
    (hread : createRecord.read r.body = .ok d) : readBody createRecord r = .ok d := by
  have hfits := h.fits
  rw [readBody, h.document, if_neg (by decide), if_neg (Nat.not_lt.mpr hfits), hread]

/-- The reply to a creation that would repeat an entry. -/
def Reply.repeated : Reply := .failed 400 "this mailing entry already exists"

/-- A failure that is rendered with its body tells its message. -/
theorem Reply.message_of_render {r : Request} {id : String} (hhead : r.method ≠ "HEAD")
    {status : Nat} (hstatus : status < 1000) {message message' : String}
    (h : (Reply.failed status message).render r id = (Reply.failed status message').render r id) :
    message = message' := by
  have hkeys : (errorShape.fields.map Field.key).Nodup := by decide
  have hread := Shape.readEntire_written hkeys (errorShape_fits hstatus message id)
  have hread' := Shape.readEntire_written hkeys (errorShape_fits hstatus message' id)
  simp only [Reply.render, headOnly, if_neg hhead] at h
  have hwritten := String.ofList_injective (congrArg Response.body h)
  rw [hwritten, hread'] at hread
  obtain ⟨-, hmessages⟩ := List.cons.inj (Except.ok.inj hread)
  exact (Scalar.text.inj (List.cons.inj hmessages).1).symm

/-! ## One creation -/

section
variable {app : App σ} {r : Request} {d : Draft} {o : Log.Operation} {s s' : σ}

theorem App.create_of_value (hread : readBody createRecord r = .ok d) {e : Entry}
    (hwithin : app.within o (Service.create d) s = (.value e, s')) :
    app.create r o s = (.value (countBody "id" e.id.val), s') := by
  simp only [App.create, hread, hwithin]

theorem App.create_of_error (hread : readBody createRecord r = .ok d) {e : Error}
    (hwithin : app.within o (Service.create d) s = (.error e, s')) :
    app.create r o s = (.error e, s') := by
  simp only [App.create, hread, hwithin]

end

section
variable (app : App σ) {scene : σ → Scene} {calm : σ → Prop}
  (hb : app.backend.Faithful scene) (hcalm : app.backend.Calm scene calm)
include hb hcalm

/-- On a calm store a draft is created that is not stored yet, and only that. -/
theorem App.create_of_calm {r : Request} {d : Draft} (hread : readBody createRecord r = .ok d)
    (hcheck : d.check = .ok ()) (o : Log.Operation) {s : σ} (hs : calm s)
    (hrests : (scene s).Rests Tables.Sound) :
    let ran := app.create r o s
    (scene ran.2).outbox = (scene s).outbox ∧ (scene ran.2).store.committed.Holds d ∧
      ((scene s).store.committed.Holds d → replyOf ran.1 = .repeated ∧
        (scene ran.2).store.committed = (scene s).store.committed) := by
  intro ran
  obtain ⟨hended, hscene⟩ :=
    (hcalm.served (some o) (Service.create d) hs hrests.closed).within hb
  obtain ⟨-, hrefused, hentered⟩ := eval_create hrests.holds d (scene s).outbox
  have hwithin : app.within o (Service.create d) s =
      (ofEnded (Transaction.within app.backend (some o) (Service.create d) s).1,
        (Transaction.within app.backend (some o) (Service.create d) s).2) := rfl
  by_cases hold : (scene s).store.committed.Holds d
  · rw [hrefused hcheck hold] at hended hscene
    rw [hended] at hwithin
    rw [show ran = _ from App.create_of_error hread hwithin]
    dsimp only
    rw [hscene]
    exact ⟨rfl, hold, fun _ => ⟨rfl, rfl⟩⟩
  · obtain ⟨e, u, heval, henters⟩ := hentered hcheck hold
    rw [heval] at hended hscene
    rw [hended] at hwithin
    rw [show ran = _ from App.create_of_value hread hwithin]
    dsimp only
    rw [hscene]
    exact ⟨rfl, henters.holds, fun h => absurd h hold⟩

/-- The same as part of a request: it is answered at once, with the reply to what came out. -/
theorem App.arrive_of_calm {r : Request} {d : Draft} (hcreates : Creates r)
    (hread : createRecord.read r.body = .ok d) (hcheck : d.check = .ok ()) (id : String) {s : σ}
    (hs : calm s) (hrests : (scene s).Rests Tables.Sound) :
    let ran := app.arrive id r s
    (scene ran.2).outbox = (scene s).outbox ∧ (scene ran.2).store.committed.Holds d ∧
      (∃ response, ran.1 = .inl response) ∧
      ((scene s).store.committed.Holds d → ran.1 = .inl (Reply.repeated.render r id) ∧
        (scene ran.2).store.committed = (scene s).store.committed) := by
  intro ran
  obtain ⟨segments, hroute⟩ := hcreates.routed
  have hbegun := hb.log ⟨beginEvent, some (operationOf r id)⟩ s
  let o := (operationOf r id).named "create mailing entry"
  let created := app.create r o (app.backend.log ⟨beginEvent, some (operationOf r id)⟩ s)
  let concluded := conclude app.backend.log id r ⟨created.1, o⟩ created.2
  have hran : ran = (.inl concluded.1, concluded.2) := by
    simp only [ran, App.arrive, App.handler, hroute]
    rfl
  obtain ⟨houtbox, hholds, hrepeated⟩ :=
    app.create_of_calm hb hcalm (hcreates.readBody_eq hread) hcheck o
      (hcalm.log hs ⟨beginEvent, some (operationOf r id)⟩) (by rw [hbegun]; exact hrests)
  rw [hbegun] at houtbox hrepeated
  have hscene : scene concluded.2 = scene created.2 := scene_conclude hb id r _ _
  rw [hran]
  dsimp only
  rw [hscene]
  refine ⟨houtbox, hholds, ⟨concluded.1, rfl⟩, fun h => ?_⟩
  obtain ⟨hreply, hsame⟩ := hrepeated h
  refine ⟨congrArg Sum.inl ?_, hsame⟩
  rw [← hreply]
  exact conclude_eq_render app.backend.log id r ⟨created.1, o⟩ created.2

end

/-! ## What calm traffic keeps -/

/-- Nothing goes wrong, no transaction is open, and the tables are sound. -/
structure Calm (r : Rehearsal) : Prop where
  undisturbed : r.Undisturbed
  rests : r.scene.Rests Tables.Sound

theorem Calm.steady (emailer : Emailer) : Steady Rehearsal.backend emailer Calm := by
  have hrests := (keeping_sound emailer).steady Rehearsal.faithful
  have hwithin : ∀ {ε α : Type} (w : Work ε α) (o : Option Log.Operation) {r : Rehearsal},
      Calm r → (Transaction.within Rehearsal.backend o w r).2.Undisturbed := fun w o r h =>
    Rehearsal.calm.within Rehearsal.faithful o w h.undisturbed h.rests.closed
  constructor
  · exact fun e r h => ⟨Rehearsal.calm.log h.undisturbed e, hrests.log e h.rests⟩
  · exact fun d o r h => ⟨hwithin _ o h, hrests.create d o h.rests⟩
  · exact fun id o r h => ⟨hwithin _ o h, hrests.remove id o h.rests⟩
  · exact fun m o r h => ⟨hwithin _ o h, hrests.send m o h.rests⟩
  · exact fun now threshold o r h => ⟨hwithin _ o h, hrests.purge now threshold o h.rests⟩
  · exact fun m now threshold o r h =>
      ⟨hwithin _ o h, hrests.purgeMailing m now threshold o h.rests⟩

namespace Traffic

/-- The committed tables. -/
def tables (t : Traffic) : Tables := t.rehearsal.store.committed

/-- The faults stay as they are. -/
def Unchanging (es : List Event) : Prop := ∀ faults change, .configure faults change ∉ es

/-- Whenever the first request has been answered, an entry like the draft is stored. Whatever comes
then, the second request is refused and changes nothing if the entry and its customer are stored
still. -/
def Repeats (emailer : Emailer) (threshold : Time.Span) (d : Draft) (r r' : Request) : Prop :=
  ∀ (t : Traffic) (id : String) (now : Timestamp), Calm t.rehearsal →
    let t₁ := (t.step emailer threshold (.arrives id r now)).2
    ∃ c ∈ t₁.tables.customers, ∃ e ∈ t₁.tables.entries,
      c.email = d.email ∧
      e.toNewEntry =
        { customer := c.id
          mailing := d.mailing
          title := d.title
          content := d.content
          insertTime := d.insertTime } ∧
      ∀ es, Unchanging es →
        let t₂ := (t₁.run emailer threshold es).2
        c ∈ t₂.tables.customers → e ∈ t₂.tables.entries →
        ∀ (id' : String) (now' : Timestamp),
          let answer := t₂.step emailer threshold (.arrives id' r' now')
          answer.1 = some (Reply.repeated.render r' id') ∧ answer.2.tables = t₂.tables ∧
            answer.2.rehearsal.outbox = t₂.rehearsal.outbox ∧ answer.2.waiting = t₂.waiting

theorem step_malformed (emailer : Emailer) (threshold : Time.Span) {r : Request}
    {segments : List String} (hroute : route messageRoutes r = .found .create segments)
    {detail : String} (hbody : readBody createRecord r = .error (.malformed detail)) (t : Traffic)
    (id : String) (now : Timestamp) :
    (t.step emailer threshold (.arrives id r now)).1 =
      some ((Reply.failed 400 "malformed request body").render r id) := by
  have harrive : ((app emailer threshold now).arrive id r t.rehearsal).1 =
      .inl ((Reply.failed 400 "malformed request body").render r id) := by
    simp only [App.arrive, App.handler, hroute, App.create, hbody]
    exact congrArg Sum.inl (conclude_eq_render _ id r _ _)
  simp only [step]
  generalize (app emailer threshold now).arrive id r t.rehearsal = ran at harrive ⊢
  obtain ⟨result, rehearsal⟩ := ran
  dsimp only at harrive
  subst harrive
  rfl

section
variable (emailer : Emailer) (threshold : Time.Span) {d : Draft} {r : Request}
  (hcreates : Creates r) (hread : createRecord.read r.body = .ok d) (hcheck : d.check = .ok ())
  {t : Traffic} (hcalm : Calm t.rehearsal)
include hcreates hread hcheck hcalm

theorem step_create (id : String) (now : Timestamp) :
    let after := t.step emailer threshold (.arrives id r now)
    after.2.tables.Holds d ∧ after.2.waiting = t.waiting ∧
      after.2.rehearsal.outbox = t.rehearsal.outbox ∧
      (t.tables.Holds d →
        after.1 = some (Reply.repeated.render r id) ∧ after.2.tables = t.tables) := by
  obtain ⟨houtbox, hholds, ⟨response, hresponse⟩, hrepeated⟩ :=
    App.arrive_of_calm (app emailer threshold now) Rehearsal.faithful Rehearsal.calm hcreates
      hread hcheck id hcalm.undisturbed hcalm.rests
  dsimp only
  simp only [step]
  generalize (app emailer threshold now).arrive id r t.rehearsal = ran at *
  obtain ⟨result, rehearsal⟩ := ran
  dsimp only at hresponse hholds houtbox hrepeated
  subst hresponse
  refine ⟨hholds, rfl, houtbox, fun h => ?_⟩
  obtain ⟨hreply, hsame⟩ := hrepeated h
  exact ⟨congrArg some (Sum.inl.inj hreply), hsame⟩

end

/-- Requests for one draft repeat each other. -/
theorem repeats (emailer : Emailer) (threshold : Time.Span) {d : Draft} (hcheck : d.check = .ok ())
    {r r' : Request} (hcreates : Creates r) (hread : createRecord.read r.body = .ok d)
    (hcreates' : Creates r') (hread' : createRecord.read r'.body = .ok d) :
    Repeats emailer threshold d r r' := by
  intro t id now hcalm t₁
  obtain ⟨⟨c, hc, hemail, e, he, hentry⟩, -⟩ :=
    step_create emailer threshold hcreates hread hcheck hcalm id now
  refine ⟨c, hc, e, he, hemail, hentry, ?_⟩
  intro es hes t₂ hc₂ he₂ id' now' answer
  have hcalm₁ : Calm t₁.rehearsal :=
    steady_step threshold (Calm.steady emailer) (fun faults change heq => by cases heq) hcalm
  have hcalm₂ : Calm t₂.rehearsal := by
    apply steady_along threshold (Calm.steady emailer) _ hcalm₁
    intro faults change hmem
    exact absurd hmem (hes faults change)
  obtain ⟨-, hwaiting, houtbox, hrepeated⟩ :=
    step_create emailer threshold hcreates' hread' hcheck hcalm₂ id' now'
  obtain ⟨hanswer, hsame⟩ := hrepeated ⟨c, hc₂, hemail, e, he₂, hentry⟩
  exact ⟨hanswer, hsame, houtbox, hwaiting⟩

/-- A request whose body is not read is told so, whatever is stored, and not that it repeats
anything. -/
theorem not_repeats (emailer : Emailer) (threshold : Time.Span) (d : Draft) (r : Request)
    {r' : Request} {segments : List String}
    (hroute : route messageRoutes r' = .found .create segments) {detail : String}
    (hbody : readBody createRecord r' = .error (.malformed detail)) :
    ¬ Repeats emailer threshold d r r' := by
  intro hrepeats
  have hcalm : Calm ({} : Traffic).rehearsal :=
    ⟨⟨rfl, rfl, fun _ _ _ _ => rfl⟩, rests_empty .empty⟩
  obtain ⟨c, hc, e, he, -, -, hafter⟩ := hrepeats {} "" .earliest hcalm
  obtain ⟨hanswer, -⟩ := hafter [] (fun _ _ => List.not_mem_nil) hc he "" .earliest
  rw [step_malformed emailer threshold hroute hbody] at hanswer
  have hmessage := Reply.message_of_render (by rw [List.mem_singleton.mp (method_of_route hroute)]; decide)
    (by decide) (Option.some.inj hanswer)
  exact absurd hmessage (by decide)

end Traffic
end Api
end MailDispatch
