import MailDispatch.Proofs.Api.Answers
import MailDispatch.Proofs.Api.Tidiness

/-! # A request to send

The purge and the sending of a request are two transactions. What the first one commits
stays, and the second one takes the entries of the mailing out exactly if the answer is 200.
-/
namespace MailDispatch.Api
open Http Mailing Service Store Time Work

variable {σ : Type}

namespace App

variable {app : App σ} {r : Request} {request : SendRequest} {m : MailingId} {o : Log.Operation}
  {s s' : σ}

theorem send_of_value {scene : σ → Scene} (hb : app.backend.Faithful scene)
    (hread : readBody sendRecord r = .ok request) (htarget : request.target = .ok m) {n : Nat}
    (hpurge : app.within o (purgeMailing m app.now app.threshold) s = (.value n, s')) :
    ∃ s'', scene s'' = scene s' ∧ app.send r o s = app.sendPurged m o s'' := by
  refine ⟨if 0 < n then app.backend.log ⟨purgedFirst m n, some o⟩ s' else s', ?_, ?_⟩
  · split
    · exact hb.log _ _
    · rfl
  · simp only [send, hread, htarget, hpurge]

/-- A request to send ends with its purge unless that is committed. -/
theorem send_of_broken (hread : readBody sendRecord r = .ok request)
    (htarget : request.target = .ok m) {result : Outcome Error Nat} (hresult : Broken result)
    (hpurge : app.within o (purgeMailing m app.now app.threshold) s = (result, s')) :
    statusOf (app.send r o s).1 = 500 ∧ (app.send r o s).2 = s' := by
  cases result with
  | value n => exact hresult.elim
  | error e =>
    simp only [send, hread, htarget, hpurge]
    exact ⟨hresult, trivial⟩
  | crash x =>
    simp only [send, hread, htarget, hpurge]
    exact ⟨rfl, trivial⟩

theorem respond_of_route_send {id : String} {segments : List String}
    (hroute : route messageRoutes r = .found .send segments) :
    let begun := app.backend.log ⟨beginEvent, some (operationOf r id)⟩ s
    let o := (operationOf r id).named "send mailing entries with mailing ID"
    app.respond id r s =
      conclude app.backend.log id r ⟨(app.send r o begun).1, o⟩ (app.send r o begun).2 := by
  simp only [respond, handle_eq, handler, hroute]

end App

/-- The answer that counts what was sent. -/
theorem countBody_sent (n : Nat) :
    countBody "sent" n =
      { status := 200, contentType := some "application/json"
        body := "\x7b\"sent\":" ++ toString n ++ "\x7d" } := by
  have hbody : String.ofList (Json.writtenObject [Json.writtenMember "sent" (Text.Numeral.ofInt n)]) =
      "\x7b\"sent\":" ++ String.ofList (Nat.toDigits 10 n) ++ "\x7d" := by
    rw [← String.toList_inj]
    simp only [String.toList_ofList, String.toList_append]
    rfl
  exact congrArg (fun body => (⟨200, some "application/json", none, none, body⟩ : Response)) hbody

/-- What the answer tells of the second transaction: the entries are gone if and only if it is 200,
and then all of them are delivered and counted. -/
theorem Sends.answer {m : MailingId} {scene after : Scene} {result : Outcome Error Response}
    (h : Sends m scene result after) {r : Request} (hhead : r.method ≠ "HEAD")
    (log : Log.Record → σ → σ) (id : String) (o : Log.Operation) (s : σ) :
    let t := scene.store.committed
    let left := t.entries.filter fun e => e.mailing == m
    let answer := (conclude log id r ⟨result, o⟩ s).1
    (after.store.committed = t ∧ answer.status ≠ 200 ∨
      after.store.committed = { t with entries := t.entries.filter fun e => e.mailing != m } ∧
        answer.status = 200) ∧
    (answer.status = 200 →
      answer =
        { status := 200, contentType := some "application/json", operationId := some id
          body := "\x7b\"sent\":" ++ toString left.length ++ "\x7d" } ∧
      ∃ mails, after.outbox = scene.outbox ++ mails ∧ mails.map some = left.map t.mail?) ∧
    (answer.status = 404 → after.outbox = scene.outbox ∧ left = []) := by
  intro t left answer
  have hstatus : answer.status = statusOf result := status_conclude ..
  cases h with
  | all hdelivers =>
    have hcount := congrArg (fun x : Response => { x with operationId := some id })
      (countBody_sent left.length)
    have hanswer := (conclude_value log id r s (o := o) hhead).trans hcount
    refine ⟨.inr ⟨rfl, hstatus⟩, fun _ => ⟨hanswer, hdelivers⟩, ?_⟩
    intro h
    cases hstatus.symm.trans h
  | nothing he hnone =>
    have hfound : answer.status = 404 := hstatus.trans he
    rw [hfound]
    exact ⟨.inl ⟨rfl, by decide⟩, nofun, fun _ => ⟨rfl, hnone⟩⟩
  | broken ho hfs hdelivers =>
    have hfailed : answer.status = 500 := hstatus.trans ho.statusOf_eq
    rw [hfailed]
    exact ⟨.inl ⟨rfl, by decide⟩, nofun, nofun⟩

/-- Only a commit of the purge lets a request to send go on. Then the purge stays, and the
entries that it has left are all delivered and removed, or none is removed. -/
theorem send_request_purges_then_sends {b : Backend σ} {scene : σ → Scene} (hb : b.Faithful scene)
    (threshold : Time.Span) (now : Timestamp) (id : String) {r : Request} {m : MailingId}
    (hsend : mailingToSend? r = some m) {s : σ} (hclosed : (scene s).store.opened = none)
    (hsound : (scene s).store.committed.Sound) :
    let app : App σ := ⟨b, carrier, threshold, now⟩
    let o := (operationOf r id).named "send mailing entries with mailing ID"
    let purge := app.within o (purgeMailing m now threshold)
      (b.log ⟨beginEvent, some (operationOf r id)⟩ s)
    let before := (scene s).store.committed
    let stale := fun e : Entry =>
      e.mailing == m && e.insertTime.before (Timestamp.cutoff now threshold)
    let purged := before.purged stale
    let left := purged.entries.filter fun e => e.mailing == m
    let answer := (app.respond id r s).1
    let after := scene (app.respond id r s).2
    ((∀ n, purge.1 ≠ .value n) →
      answer.status = 500 ∧ after.store.committed = before ∧ after.outbox = (scene s).outbox ∧
        after.store.next ≤ (scene s).store.next + 1 ∧
        ∃ records : List Log.Record,
          (app.respond id r s).2 = records.foldl (fun s x => b.log x s) purge.2) ∧
    ∀ n, purge.1 = .value n →
      (scene purge.2).store.committed = purged ∧
      (after.store.committed = purged ∧ answer.status ≠ 200 ∨
        after.store.committed =
            { purged with entries := purged.entries.filter fun e => e.mailing != m } ∧
          answer.status = 200) ∧
      (answer.status = 200 →
        answer =
          { status := 200, contentType := some "application/json", operationId := some id
            body := "\x7b\"sent\":" ++ toString left.length ++ "\x7d" } ∧
        ∃ mails, after.outbox = (scene s).outbox ++ mails ∧ mails.map some = left.map purged.mail?) ∧
      (answer.status = 404 → after.outbox = (scene s).outbox ∧ left = []) := by
  intro app o purge before stale purged left answer after
  let begun := b.log ⟨beginEvent, some (operationOf r id)⟩ s
  have happ : app.backend.Faithful scene := hb
  have hbegun : scene begun = scene s := hb.log _ _
  obtain ⟨⟨segments, hroute⟩, request, hread, htarget⟩ := mailingToSend?_eq_some hsend
  have hquiet : Quiet (fun n u => n = (before.entries.filter stale).length ∧
      u = purged) (scene s) purge.1 (scene purge.2) := by
    rw [← hbegun]
    refine quiet_within happ (by rw [hbegun, hclosed]) ?_ o
    rw [hbegun]
    exact quietly_purgeMailing hsound m now threshold
  have hrespond : app.respond id r s =
      conclude b.log id r ⟨(app.send r o begun).1, o⟩ (app.send r o begun).2 :=
    App.respond_of_route_send hroute
  have hafter : after = scene (app.send r o begun).2 :=
    (congrArg (fun x => scene x.2) hrespond).trans (scene_conclude hb ..)
  generalize hresult : purge.1 = result at hquiet
  generalize hscene : scene purge.2 = scene' at hquiet
  have hpurge : purge = (result, purge.2) := by rw [← hresult]
  cases hquiet with
  | broken ho hnext =>
    obtain ⟨hbroken, hend⟩ := App.send_of_broken hread htarget ho hpurge
    rw [hend, hscene] at hafter
    refine ⟨fun _ => ?_, ?_⟩
    · obtain ⟨records, hrecords⟩ := exists_records_conclude b.log id r
        ⟨(app.send r o begun).1, o⟩ (app.send r o begun).2
      have hstatus : answer.status = statusOf (app.send r o begun).1 :=
        (congrArg (fun x => x.1.status) hrespond).trans (status_conclude ..)
      refine ⟨hstatus.trans hbroken, by rw [hafter], by rw [hafter], ?_, records, ?_⟩
      · rw [hafter]
        exact hnext
      · rw [hrespond, hrecords, hend]
    · rintro n rfl
      exact ho.elim
  | @value n u h =>
    obtain ⟨-, rfl⟩ := h
    refine ⟨fun hnot => absurd rfl (hnot n), fun _ _ => ⟨rfl, ?_⟩⟩
    obtain ⟨s', hs', hsent⟩ := App.send_of_value hb hread htarget hpurge
    have hrests : (scene s').Rests Tables.Sound := by
      rw [hs']
      exact App.rests_within happ (keeps_of_perform (fun _ ht c => ht.perform c) _) o
        ⟨hbegun ▸ hclosed, hbegun ▸ hsound⟩
    have hsends := sends_sendPurged happ rfl hrests.closed hrests.holds m o
    have hhead : r.method ≠ "HEAD" := by
      rw [List.mem_singleton.mp (method_of_route hroute)]
      decide
    have hfinal := hsends.answer hhead b.log id o (app.sendPurged m o s').2
    have hanswer : answer = (conclude b.log id r ⟨(app.sendPurged m o s').1, o⟩
        (app.sendPurged m o s').2).1 := by
      rw [← hsent]
      exact congrArg Prod.fst hrespond
    rw [hs', hscene, ← hsent, ← hafter, hsent] at hfinal
    rw [hanswer]
    exact hfinal

/-- The second of two mails is refused at first: one mail is out and both entries stay, but the stale
one is gone with its customer. Where no mail is refused, both are sent and counted. -/
theorem refused_mail_leaves_purge :
    let t : Tables :=
      ⟨[⟨⟨1⟩, "anna@example.com"⟩, ⟨⟨2⟩, "bert@example.com"⟩],
        [⟨⟨⟨1⟩, ⟨7⟩, "Old", "News", .earliest⟩, ⟨1⟩⟩, ⟨⟨⟨2⟩, ⟨7⟩, "Hello", "World", .latest⟩, ⟨2⟩⟩,
          ⟨⟨⟨2⟩, ⟨7⟩, "Hello", "again", .latest⟩, ⟨3⟩⟩], 2, 3⟩
    let calm : Rehearsal := { store := ⟨t, none, 0⟩ }
    let full : Rehearsal := { calm with faults := [⟨.deliver, 2, none, .refusal "mailbox full"⟩] }
    let request := posted "/api/messages/send" "[7]"
    let app : App Rehearsal := ⟨Rehearsal.backend, carrier, .ofSeconds 60, .latest⟩
    let refused := app.respond "a" request full
    let sent := app.respond "a" request calm
    (mailingToSend? request = some ⟨7⟩ ∧ t.Sound ∧ refused.1.status = 500 ∧
      refused.2.store.committed = t.purged (fun e =>
        e.mailing == ⟨7⟩ && e.insertTime.before (Timestamp.cutoff .latest (.ofSeconds 60))) ∧
      refused.2.store.committed.entries.map (·.id.val) = [2, 3] ∧
      refused.2.store.committed.customers.map (·.id.val) = [2] ∧
      refused.2.outbox = [⟨"bert@example.com", "Hello", "World"⟩]) ∧
    sent.1 =
      { status := 200, contentType := some "application/json", operationId := some "a"
        body := "\x7b\"sent\":2\x7d" } ∧
    sent.2.store.committed.entries = [] ∧
    sent.2.outbox =
      [⟨"bert@example.com", "Hello", "World"⟩, ⟨"bert@example.com", "Hello", "again"⟩] := by
  intro t calm full request app refused sent
  have hsend : mailingToSend? request = some ⟨7⟩ := by decide +kernel
  have hsound : t.Sound :=
    ⟨by decide, by decide, by decide, by decide, by decide, by decide⟩
  let purge (r : Rehearsal) := app.within ((operationOf request "a").named
    "send mailing entries with mailing ID") (purgeMailing ⟨7⟩ .latest (.ofSeconds 60))
    (Rehearsal.backend.log ⟨beginEvent, some (operationOf request "a")⟩ r)
  have hpurges : (purge full).1 = .value 1 ∧ (purge calm).1 = .value 1 := by decide +kernel
  have hparts (r : Rehearsal) (hclosed : r.store.opened = none)
      (hcommitted : r.store.committed.Sound) :=
    send_request_purges_then_sends Rehearsal.faithful (.ofSeconds 60) .latest "a" hsend hclosed
      hcommitted
  refine ⟨?_, ?_⟩
  · have hstatus : refused.1.status = 500 := by decide +kernel
    rcases ((hparts full rfl hsound).2 1 hpurges.1).2.1 with ⟨hcommitted, -⟩ | ⟨-, hsent⟩
    · exact ⟨hsend, hsound, hstatus, hcommitted, by decide +kernel, by decide +kernel,
        by decide +kernel⟩
    · cases hstatus.symm.trans hsent
  · have hstatus : sent.1.status = 200 := by decide +kernel
    obtain ⟨hanswer, -⟩ := ((hparts calm rfl hsound).2 1 hpurges.2).2.2.1 hstatus
    exact ⟨hanswer.trans (by decide +kernel), by decide +kernel, by decide +kernel⟩

end MailDispatch.Api
