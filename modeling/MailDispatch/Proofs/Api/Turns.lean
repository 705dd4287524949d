import MailDispatch.Proofs.Api.Answers
import MailDispatch.Proofs.Api.Tidiness
import MailDispatch.Proofs.Service.Creating

/-! # Turns of traffic

What one turn of traffic can do to the stored entries and to the mail. An entry goes by a
request to remove it, by a purge or by being sent; only a request to send that goes on
delivers anything.
-/
namespace MailDispatch.Api
open Http Mailing Service Store Time Work

variable {σ α : Type}

/-- What becomes of a request on its arrival. -/
inductive Arrived (threshold : Time.Span) (now : Timestamp) (r : Request) (scene : Scene) :
    Response ⊕ Waiting → Scene → Prop where
  | waits {w : Waiting} {next : Nat} (hrequest : w.request = r)
    (hsend : mailingToSend? r = some w.mailing) :
    Arrived threshold now r scene (.inr w)
      ⟨⟨scene.store.committed.purged fun e =>
          e.mailing == w.mailing && e.insertTime.before (Timestamp.cutoff now threshold),
        none, next⟩, scene.outbox⟩
  | removed {response : Response} {id : MailingEntryId} {next : Nat}
    (hremove : entryToRemove? r = some id) (hstatus : response.status = 200) :
    Arrived threshold now r scene (.inl response)
      ⟨⟨(scene.store.committed.deleteEntry id).2, none, next⟩, scene.outbox⟩
  | answered {response : Response} {scene' : Scene}
    (hentries : scene.store.committed.entries ⊆ scene'.store.committed.entries)
    (hout : scene'.outbox = scene.outbox) : Arrived threshold now r scene (.inl response) scene'

namespace App

section
variable {app : App σ} {scene : σ → Scene} {s : σ}

theorem adds_within (hb : app.backend.Faithful scene) {w : Work Failure α} (hw : w.Adds)
    (o : Log.Operation) :
    (scene s).store.committed.entries ⊆ (scene (app.within o w s).2).store.committed.entries ∧
      (scene (app.within o w s).2).outbox = (scene s).outbox := by
  have hupshot := Transaction.upshot_within hb (some o) (hw _ (scene s).outbox)
  simp only [App.within]
  generalize (Transaction.within app.backend (some o) w s).1 = ended at hupshot
  generalize scene (Transaction.within app.backend (some o) w s).2 = scene' at hupshot ⊢
  refine ⟨?_, hupshot.outbox_eq fun _ _ _ h => h.2⟩
  cases hupshot with
  | committed h => exact h.1
  | notBegun | notCommitted | failed | crashed => exact List.Subset.refl _

theorem adds_create (hb : app.backend.Faithful scene) (r : Request) (o : Log.Operation) :
    (scene s).store.committed.entries ⊆ (scene (app.create r o s).2).store.committed.entries ∧
      (scene (app.create r o s).2).outbox = (scene s).outbox := by
  rw [create_eq_andThen]
  cases readBody createRecord r with
  | error e => exact ⟨List.Subset.refl _, rfl⟩
  | ok draft =>
    exact keeps_andThen (P := fun s' =>
      (scene s).store.committed.entries ⊆ (scene s').store.committed.entries ∧
        (scene s').outbox = (scene s).outbox)
      (adds_within hb (Service.adds_create draft) o) fun _ _ h => h

/-- The entry is gone if and only if the answer is a success. -/
theorem removed_or_kept (hb : app.backend.Faithful scene) (segment : String) (o : Log.Operation) :
    (∃ id, Id.parse .mailingEntry segment = .ok id ∧
      (app.remove segment o s).1 = .value (.empty 200) ∧
      scene (app.remove segment o s).2 = ⟨⟨((scene s).store.committed.deleteEntry id).2, none,
        (scene s).store.next + 1⟩, (scene s).outbox⟩) ∨
    (scene (app.remove segment o s).2).store.committed = (scene s).store.committed ∧
      (scene (app.remove segment o s).2).outbox = (scene s).outbox := by
  unfold remove
  cases hid : Id.parse .mailingEntry segment with
  | error r => exact .inr ⟨rfl, rfl⟩
  | ok id =>
    have hupshot := Transaction.upshot_within hb (some o)
      (ensures_remove id (scene s).store.committed (scene s).outbox)
    simp only [App.within]
    generalize Transaction.within app.backend (some o) (Service.remove id) s = ran at hupshot ⊢
    obtain ⟨ended, s'⟩ := ran
    have hout := hupshot.outbox_eq fun _ _ _ h => h.2
    cases ended with
    | value u =>
      generalize hscene : scene s' = scene' at hupshot
      cases hupshot with
      | committed h =>
        obtain ⟨hvalue, rfl⟩ := h
        obtain rfl := hvalue _ rfl
        exact .inl ⟨id, rfl, rfl, hscene⟩
    | failed | crashed | notBegun | notCommitted =>
      exact .inr ⟨hupshot.committed_eq (by rintro a ⟨⟩), hout⟩

/-- A request to send that is not answered yet has purged its mailing. -/
theorem purged_or_kept (hb : app.backend.Faithful scene) (hclosed : (scene s).store.opened = none)
    (hsound : (scene s).store.committed.Sound) {r : Request} {segments : List String}
    (hroute : route messageRoutes r = .found .send segments) (o : Log.Operation) :
    (∃ m, (app.purgeFirst r o s).1 = .ok m ∧ mailingToSend? r = some m ∧
      scene (app.purgeFirst r o s).2 = ⟨⟨(scene s).store.committed.purged fun e =>
          e.mailing == m && e.insertTime.before (Timestamp.cutoff app.now app.threshold),
        none, (scene s).store.next + 1⟩, (scene s).outbox⟩) ∨
    (∃ result, (app.purgeFirst r o s).1 = .error result) ∧
      (scene (app.purgeFirst r o s).2).store.committed = (scene s).store.committed ∧
      (scene (app.purgeFirst r o s).2).outbox = (scene s).outbox := by
  unfold purgeFirst
  cases hread : readBody sendRecord r with
  | error e => exact .inr ⟨⟨_, rfl⟩, rfl, rfl⟩
  | ok request =>
    dsimp only
    cases htarget : request.target with
    | error rejection => exact .inr ⟨⟨_, rfl⟩, rfl, rfl⟩
    | ok m =>
      have hquiet := quiet_within hb hclosed
        (quietly_purgeMailing hsound m app.now app.threshold) o
      dsimp only
      generalize app.within o (purgeMailing m app.now app.threshold) s = ran at hquiet ⊢
      obtain ⟨result, s'⟩ := ran
      dsimp only at hquiet ⊢
      generalize hscene : scene s' = scene' at hquiet
      cases hquiet with
      | @value n u h =>
        obtain ⟨-, rfl⟩ := h
        have hm : mailingToSend? r = some m := by
          simp only [mailingToSend?, hroute, hread, htarget]
          rfl
        refine .inl ⟨m, rfl, hm, ?_⟩
        dsimp only
        split
        · exact (hb.log _ _).trans hscene
        · exact hscene
      | broken ho hnext =>
        cases result with
        | value n => exact ho.elim
        | error e => exact .inr ⟨⟨_, rfl⟩, by rw [hscene], by rw [hscene]⟩
        | crash x => exact .inr ⟨⟨_, rfl⟩, by rw [hscene], by rw [hscene]⟩

theorem arrived (hb : app.backend.Faithful scene) (hclosed : (scene s).store.opened = none)
    (hsound : (scene s).store.committed.Sound) (id : String) (r : Request) :
    Arrived app.threshold app.now r (scene s) (app.arrive id r s).1 (scene (app.arrive id r s).2) := by
  have hbegun : scene (app.backend.log ⟨beginEvent, some (operationOf r id)⟩ s) = scene s :=
    hb.log _ _
  unfold arrive
  rw [← hbegun] at hclosed hsound ⊢
  dsimp only
  generalize app.backend.log ⟨beginEvent, some (operationOf r id)⟩ s = begun at hclosed hsound ⊢
  -- Whoever does not wait is answered, which changes nothing any more.
  have hanswered : ∀ (handled : Handled) (s' : σ),
      (scene begun).store.committed.entries ⊆ (scene s').store.committed.entries ∧
        (scene s').outbox = (scene begun).outbox →
      Arrived app.threshold app.now r (scene begun)
        (.inl (conclude app.backend.log id r handled s').1)
        (scene (conclude app.backend.log id r handled s').2) := by
    rintro handled s' ⟨hentries, hout⟩
    rw [scene_conclude hb]
    exact .answered hentries hout
  cases hroute : route messageRoutes r with
  | unknown | notAllowed methods | badSegment name =>
    simp only [handler, hroute]
    exact hanswered _ _ ⟨List.Subset.refl _, rfl⟩
  | found endpoint segments =>
    cases endpoint with
    | health =>
      simp only [handler, hroute]
      exact hanswered _ _ ⟨List.Subset.refl _, rfl⟩
    | create =>
      simp only [handler, hroute]
      exact hanswered _ _ (adds_create hb r _)
    | remove =>
      simp only [handler, hroute]
      rcases removed_or_kept (s := begun) hb (segments.headD "")
        ((operationOf r id).named "delete mailing entry with ID") with
        ⟨x, hx, hvalue, hscene⟩ | ⟨hcommitted, hout⟩
      · have hremove : entryToRemove? r = some x := by
          simp only [entryToRemove?, hroute, hx]
          rfl
        rw [scene_conclude hb, hscene]
        refine .removed hremove ?_
        rw [status_conclude, hvalue]
        rfl
      · exact hanswered _ _ ⟨by rw [hcommitted]; exact List.Subset.refl _, hout⟩
    | send =>
      dsimp only
      have hpurged := purged_or_kept hb hclosed hsound hroute
        ((operationOf r id).named "send mailing entries with mailing ID")
      generalize app.purgeFirst r ((operationOf r id).named
        "send mailing entries with mailing ID") begun = ran at hpurged ⊢
      obtain ⟨result, s'⟩ := ran
      rcases hpurged with ⟨m, hm, hsend, hscene⟩ | ⟨⟨result', hresult⟩, hcommitted, hout⟩
      · obtain rfl : result = .ok m := hm
        dsimp only at hscene ⊢
        rw [hscene]
        exact .waits rfl hsend
      · obtain rfl : result = .error result' := hresult
        dsimp only at hcommitted hout ⊢
        exact hanswered _ _ ⟨by rw [hcommitted]; exact List.Subset.refl _, hout⟩

end

end App

/-- All that a cleanup does besides its purge is to log it. -/
theorem scene_runOnce {b : Backend σ} {scene : σ → Scene} (hb : b.Faithful scene) (id : String)
    (now : Timestamp) (threshold : Time.Span) (s : σ) :
    scene (Cleanup.runOnce b id now threshold s) =
      scene (Transaction.within b (some ((Log.Operation.start id).named Cleanup.jobName))
        (purge now threshold) s).2 := by
  have hreport : ∀ name operation result s'',
      scene (Cleanup.report b.log name operation result s'') = scene s'' := by
    intro name operation result s''
    unfold Cleanup.report
    split
    · exact hb.log _ _
    · rfl
  unfold Cleanup.runOnce Cleanup.purgeOnce
  dsimp only
  rw [hreport]
  split
  · exact hb.log _ _
  · rfl

/-! ## Turns -/

namespace Traffic

def entries (t : Traffic) : List Entry := t.rehearsal.store.committed.entries

/-- The store is at rest and sound, and whoever waits waits to send the mailing of its request. -/
structure Orderly (t : Traffic) : Prop where
  rests : t.rehearsal.scene.Rests Tables.Sound
  waiting : ∀ w ∈ t.waiting, mailingToSend? w.request = some w.mailing

/-- All that can become of entries and mail in a turn. -/
inductive Turned (threshold : Time.Span) (t : Traffic) :
    Event → Option Response → Traffic → Prop where
  | keeps {e : Event} {response : Option Response} {t' : Traffic}
    (hentries : t.entries ⊆ t'.entries) (hout : t'.rehearsal.outbox = t.rehearsal.outbox) :
    Turned threshold t e response t'
  | removes {id : String} {r : Request} {now : Timestamp} {x : MailingEntryId}
    {response : Response} {t' : Traffic} (hremove : entryToRemove? r = some x)
    (hstatus : response.status = 200) (hentries : t'.entries = t.entries.filter fun e => e.id != x)
    (hout : t'.rehearsal.outbox = t.rehearsal.outbox) :
    Turned threshold t (.arrives id r now) (some response) t'
  | purges {id : String} {r : Request} {now : Timestamp} {m : MailingId} {t' : Traffic}
    (hsend : mailingToSend? r = some m)
    (hentries : t'.entries = t.entries.filter fun e =>
      !(e.mailing == m && e.insertTime.before (Timestamp.cutoff now threshold)))
    (hout : t'.rehearsal.outbox = t.rehearsal.outbox) :
    Turned threshold t (.arrives id r now) none t'
  | cleans {id : String} {now : Timestamp} {t' : Traffic}
    (hentries : t'.entries = t.entries.filter fun e =>
      !e.insertTime.before (Timestamp.cutoff now threshold))
    (hout : t'.rehearsal.outbox = t.rehearsal.outbox) :
    Turned threshold t (.cleans id now) none t'
  | sends {place : Nat} {w : Waiting} {response : Response} {result : Outcome Error Response}
    {t' : Traffic} (hw : t.waiting[place]? = some w) (hstatus : response.status = statusOf result)
    (hsends : Sends w.mailing t.rehearsal.scene result t'.rehearsal.scene) :
    Turned threshold t (.proceeds place) (some response) t'

variable {threshold : Time.Span} {t : Traffic}

theorem Orderly.turned_arrives (h : t.Orderly) (id : String) (r : Request) (now : Timestamp) :
    Turned threshold t (.arrives id r now) (step carrier threshold t (.arrives id r now)).1
      (step carrier threshold t (.arrives id r now)).2 := by
  have harrived := App.arrived (faithful_app threshold carrier now) h.rests.closed h.rests.holds
    id r
  simp only [step]
  generalize (app carrier threshold now).arrive id r t.rehearsal = ran at harrived ⊢
  obtain ⟨result, rehearsal⟩ := ran
  dsimp only at harrived
  generalize hscene : rehearsal.scene = scene' at harrived
  have hentries : rehearsal.store.committed = scene'.store.committed := by rw [← hscene]; rfl
  have hout : rehearsal.outbox = scene'.outbox := by rw [← hscene]; rfl
  cases harrived with
  | waits hrequest hsend => exact .purges hsend (congrArg Tables.entries hentries) hout
  | removed hremove hstatus =>
    exact .removes hremove hstatus (congrArg Tables.entries hentries) hout
  | answered hsubset hsame =>
    refine .keeps ?_ (hout.trans hsame)
    rw [← hentries] at hsubset
    exact hsubset

theorem Orderly.turned_proceeds (h : t.Orderly) (place : Nat) :
    Turned threshold t (.proceeds place) (step carrier threshold t (.proceeds place)).1
      (step carrier threshold t (.proceeds place)).2 := by
  simp only [step]
  cases hw : t.waiting[place]? with
  | none => exact .keeps (List.Subset.refl _) rfl
  | some w =>
    have hb := faithful_app threshold carrier w.arrival
    have hsends := sends_sendPurged hb rfl h.rests.closed h.rests.holds w.mailing w.operation
    have hproceed := scene_conclude hb w.id w.request
      ⟨((app carrier threshold w.arrival).sendPurged w.mailing w.operation t.rehearsal).1,
        w.operation⟩
      ((app carrier threshold w.arrival).sendPurged w.mailing w.operation t.rehearsal).2
    rw [← hproceed] at hsends
    exact .sends hw (status_conclude ..) hsends

/-- A cleanup removes what it selects if it commits, and otherwise nothing. -/
theorem Orderly.turned_cleans (h : t.Orderly) (id : String) (now : Timestamp) :
    Turned threshold t (.cleans id now) (step carrier threshold t (.cleans id now)).1
      (step carrier threshold t (.cleans id now)).2 := by
  have hupshot := Transaction.upshot_within Rehearsal.faithful
    (some ((Log.Operation.start id).named Cleanup.jobName))
    (quietly_purge h.rests.holds now threshold)
  rw [← scene_runOnce Rehearsal.faithful] at hupshot
  have hout := hupshot.outbox_eq fun _ _ _ hq => hq.outbox_eq
  simp only [step]
  generalize Cleanup.runOnce Rehearsal.backend id now threshold t.rehearsal = rehearsal
    at hupshot hout ⊢
  generalize hscene : rehearsal.scene = scene' at hupshot
  have hentries : rehearsal.store.committed = scene'.store.committed := by rw [← hscene]; rfl
  generalize (Transaction.within Rehearsal.backend _ (purge now threshold) t.rehearsal).1 = ended
    at hupshot
  cases hupshot with
  | committed hq =>
    obtain ⟨⟨-, rfl⟩, -⟩ := hq
    exact .cleans (congrArg Tables.entries hentries) hout
  | notBegun | notCommitted | failed | crashed =>
    refine .keeps ?_ hout
    rw [entries, entries, hentries]
    exact List.Subset.refl _

theorem Orderly.turned (h : t.Orderly) (e : Event) :
    Turned threshold t e (step carrier threshold t e).1 (step carrier threshold t e).2 := by
  cases e with
  | configure faults change => cases faults <;> exact .keeps (List.Subset.refl _) rfl
  | arrives id r now => exact h.turned_arrives id r now
  | proceeds place => exact h.turned_proceeds place
  | cleans id now => exact h.turned_cleans id now

theorem Orderly.step (h : t.Orderly) (threshold : Time.Span) (e : Event) :
    (Traffic.step carrier threshold t e).2.Orderly := by
  refine ⟨rests_step threshold (keeping_sound carrier) e h.rests, ?_⟩
  cases e with
  | configure faults change => exact h.waiting
  | arrives id r now =>
    have harrived := App.arrived (faithful_app threshold carrier now) h.rests.closed h.rests.holds
      id r
    simp only [Traffic.step]
    generalize (app carrier threshold now).arrive id r t.rehearsal = ran at harrived ⊢
    obtain ⟨result, rehearsal⟩ := ran
    cases result with
    | inl response => exact h.waiting
    | inr w =>
      generalize rehearsal.scene = scene' at harrived
      cases harrived with
      | waits hrequest hsend =>
        intro v hv
        rcases List.mem_append.mp hv with hv | hv
        · exact h.waiting v hv
        · obtain rfl := List.mem_singleton.mp hv
          rw [hrequest, hsend]
  | proceeds place =>
    simp only [Traffic.step]
    cases t.waiting[place]? with
    | none => exact h.waiting
    | some w => exact fun v hv => h.waiting v (List.mem_of_mem_eraseIdx hv)
  | cleans id now => exact h.waiting

theorem orderly_start {r : Rehearsal} (hclosed : r.store.opened = none)
    (hsound : r.store.committed.Sound) : Orderly ⟨r, []⟩ := by
  refine ⟨⟨hclosed, hsound⟩, ?_⟩
  intro w hw
  cases hw

theorem Orderly.run (h : t.Orderly) (threshold : Time.Span) (es : List Event) :
    (Traffic.run carrier threshold t es).2.Orderly := by
  induction es generalizing t with
  | nil => exact h
  | cons e es ih => exact ih (h.step threshold e)

end Traffic

end MailDispatch.Api
