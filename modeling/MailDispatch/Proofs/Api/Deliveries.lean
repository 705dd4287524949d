import MailDispatch.Proofs.Api.Turns
import MailDispatch.Proofs.Store.Succession

/-! # No message is lost

Mail cannot be taken back, but the removal of its entry can. So what went out for which entry
is recorded beside the run: a turn that sends delivers the first entries of its mailing, in
their order. An entry that goes is gone for ever, which bounds how often it is delivered.
-/
namespace MailDispatch.Api
open Http Mailing Service Store Time Work

namespace Traffic

structure Turn where
  before : Traffic
  event : Event
  response : Option Response
  after : Traffic

def turn (threshold : Time.Span) (t : Traffic) (e : Event) : Turn :=
  ⟨t, e, (step carrier threshold t e).1, (step carrier threshold t e).2⟩

def turns (threshold : Time.Span) (t : Traffic) : List Event → List Turn
  | [] => []
  | e :: es => turn threshold t e :: turns threshold (turn threshold t e).after es

namespace Turn

def loses (τ : Turn) (e : Entry) : Bool :=
  decide (e ∈ τ.before.entries) && !decide (e ∈ τ.after.entries)

/-- The mail that went out in the turn. -/
def mails (τ : Turn) : List Mail :=
  τ.after.rehearsal.outbox.drop τ.before.rehearsal.outbox.length

/-- The request that goes on in the turn. -/
def request? (τ : Turn) : Option Request :=
  match τ.event with
  | .arrives _ r _ => some r
  | .proceeds place => (τ.before.waiting[place]?).map Waiting.request
  | .configure _ _ | .cleans _ _ => none

def sends (τ : Turn) (m : MailingId) : Bool := τ.request?.bind mailingToSend? == some m

def answers (τ : Turn) (status : Nat) : Bool := τ.response.any (·.status == status)

/-- The entries whose mail went out in the turn. -/
def delivered (τ : Turn) : List Entry :=
  match τ.request?.bind mailingToSend? with
  | some m => (τ.before.entries.filter fun e => e.mailing == m).take τ.mails.length
  | none => []

/-- The ways in which an entry can go. -/
inductive Cause where
  | removed
  | purged
  | sent
  deriving DecidableEq

/-- What a turn must be to be the cause that an entry goes. -/
def Cause.Explains (threshold : Time.Span) (τ : Turn) (e : Entry) : Cause → Prop
  | .removed => τ.request?.bind entryToRemove? = some e.id ∧ τ.answers 200 = true
  | .purged =>
    ∃ id now, e.insertTime.before (Timestamp.cutoff now threshold) = true ∧
      ((∃ r, τ.event = .arrives id r now ∧ mailingToSend? r = some e.mailing) ∨
        τ.event = .cleans id now)
  | .sent =>
    (∃ place, τ.event = .proceeds place) ∧ τ.sends e.mailing = true ∧ τ.answers 200 = true ∧
      ∃ mail ∈ τ.mails, τ.before.rehearsal.store.committed.mail? e = some mail

end Turn

variable {threshold : Time.Span} {t u : Traffic}

/-! ## Entries that are gone -/

/-- The identifier of the entry was given, and its entry is not stored any more. -/
def Gone (t : Traffic) (e : Entry) : Prop :=
  e ∉ t.entries ∧ e.id.val ≤ t.rehearsal.store.committed.lastEntry

theorem Gone.of_precedes {e : Entry} (h : t.Gone e)
    (hle : t.rehearsal.store.committed.Precedes u.rehearsal.store.committed) : u.Gone e := by
  obtain ⟨hnot, hgiven⟩ := h
  have hlast := hle.lastEntry_le
  refine ⟨?_, by omega⟩
  intro he
  rcases hle.entry_old_or_new e he with hold | hnew
  · exact hnot hold
  · omega

theorem precedes_step (h : t.Orderly) (threshold : Time.Span) (e : Event) :
    t.rehearsal.store.committed.Precedes
      (step carrier threshold t e).2.rehearsal.store.committed := by
  have hkeeping : Keeping carrier fun u => t.rehearsal.store.committed.Precedes u :=
    .of_perform (fun u hu c => hu.trans (u.precedes_perform c)) carrier
  exact (rests_step threshold hkeeping e ⟨h.rests.closed, .refl _⟩).holds

/-! ## One turn -/

/-- What is known of every turn of a run. -/
structure Turn.Regular (threshold : Time.Span) (τ : Turn) : Prop where
  orderly : τ.before.Orderly
  turned : Turned threshold τ.before τ.event τ.response τ.after
  precedes : τ.before.rehearsal.store.committed.Precedes τ.after.rehearsal.store.committed

theorem Orderly.turn (h : t.Orderly) (threshold : Time.Span) (e : Event) :
    (turn threshold t e).after.Orderly :=
  h.step threshold e

theorem regular_turn (h : t.Orderly) (threshold : Time.Span) (e : Event) :
    (turn threshold t e).Regular threshold :=
  ⟨h, h.turned e, precedes_step h threshold e⟩

theorem regular_of_mem_turns (h : t.Orderly) {es : List Event} {τ : Turn}
    (hτ : τ ∈ turns threshold t es) : τ.Regular threshold := by
  induction es generalizing t with
  | nil => cases hτ
  | cons e es ih =>
    rcases List.mem_cons.mp hτ with rfl | hτ
    · exact regular_turn h threshold e
    · exact ih (h.step threshold e) hτ

theorem exists_prefix_of_sends {m : MailingId} {scene scene' : Scene}
    {result : Outcome Error Response} (h : Sends m scene result scene') :
    ∃ fs, fs <+: scene.store.committed.entries.filter (fun e => e.mailing == m) ∧
      scene.store.committed.Delivers fs scene.outbox scene'.outbox := by
  cases h with
  | all h => exact ⟨_, List.prefix_rfl, h⟩
  | nothing => exact ⟨[], List.nil_prefix, Tables.delivers_nil _ _⟩
  | broken ho hfs h => exact ⟨_, hfs, h⟩

theorem not_send_and_remove {r : Request} {m : MailingId} {id : MailingEntryId}
    (hsend : mailingToSend? r = some m) (hremove : entryToRemove? r = some id) : False := by
  obtain ⟨⟨segments, hroute⟩, -⟩ := mailingToSend?_eq_some hsend
  rw [entryToRemove?, hroute] at hremove
  cases hremove

namespace Turn

variable {τ : Turn} {e : Entry}

theorem loses_iff : τ.loses e = true ↔ e ∈ τ.before.entries ∧ e ∉ τ.after.entries := by
  simp [loses]

theorem mails_of_outbox_append {mails : List Mail}
    (h : τ.after.rehearsal.outbox = τ.before.rehearsal.outbox ++ mails) : τ.mails = mails := by
  rw [Turn.mails, h, List.drop_left]

theorem mails_of_outbox_eq (h : τ.after.rehearsal.outbox = τ.before.rehearsal.outbox) :
    τ.mails = [] :=
  mails_of_outbox_append (h.trans (List.append_nil _).symm)

theorem delivered_of_mails_eq_nil (h : τ.mails = []) : τ.delivered = [] := by
  unfold delivered
  rw [h]
  split <;> rfl

theorem request?_of_arrives {id : String} {r : Request} {now : Timestamp}
    (h : τ.event = .arrives id r now) : τ.request? = some r := by
  unfold request?
  rw [h]

theorem request?_of_proceeds {place : Nat} {w : Waiting} (h : τ.event = .proceeds place)
    (hw : τ.before.waiting[place]? = some w) : τ.request? = some w.request := by
  unfold request?
  rw [h]
  exact congrArg (Option.map Waiting.request) hw

/-- No turn explains in two ways that an entry goes. -/
theorem Cause.unique {c d : Cause} (hc : c.Explains threshold τ e) (hd : d.Explains threshold τ e) :
    c = d := by
  -- A request does not ask both to send and to remove.
  have hrequest : ∀ {id : MailingEntryId} {m : MailingId},
      τ.request?.bind entryToRemove? = some id → τ.request?.bind mailingToSend? = some m → False := by
    intro id m hremove hsend
    obtain ⟨r, hr, hremove⟩ := Option.bind_eq_some_iff.mp hremove
    rw [hr] at hsend
    exact not_send_and_remove hsend hremove
  have hremoved : ∀ {c : Cause}, c.Explains threshold τ e → c ≠ .removed →
      τ.request?.bind entryToRemove? = some e.id → False := by
    intro c hc hne hremove
    cases c with
    | removed => exact hne rfl
    | purged =>
      obtain ⟨id, now, -, ⟨r, hevent, hsend⟩ | hevent⟩ := hc
      · have hsend' : τ.request?.bind mailingToSend? = some e.mailing := by
          rw [request?_of_arrives hevent]
          exact hsend
        exact hrequest hremove hsend'
      · unfold request? at hremove
        rw [hevent] at hremove
        cases hremove
    | sent => exact hrequest hremove (beq_iff_eq.mp hc.2.1)
  have hpurged : Cause.Explains threshold τ e .purged → Cause.Explains threshold τ e .sent →
      False := by
    rintro ⟨id, now, -, ⟨r, hevent, -⟩ | hevent⟩ ⟨⟨place, hproceeds⟩, -⟩
    · cases hevent.symm.trans hproceeds
    · cases hevent.symm.trans hproceeds
  cases c with
  | removed =>
    cases d with
    | removed => rfl
    | purged => exact (hremoved hd (by decide) hc.1).elim
    | sent => exact (hremoved hd (by decide) hc.1).elim
  | purged =>
    cases d with
    | removed => exact (hremoved hc (by decide) hd.1).elim
    | purged => rfl
    | sent => exact (hpurged hc hd).elim
  | sent =>
    cases d with
    | removed => exact (hremoved hc (by decide) hd.1).elim
    | purged => exact (hpurged hd hc).elim
    | sent => rfl

namespace Regular

/-- What a turn did that delivered something. -/
theorem sends_of_mails (h : τ.Regular threshold) :
    τ.mails = [] ∧ τ.after.rehearsal.outbox = τ.before.rehearsal.outbox ∨
      ∃ place m result, τ.event = .proceeds place ∧ τ.request?.bind mailingToSend? = some m ∧
        (∃ response, τ.response = some response ∧ response.status = statusOf result) ∧
        Sends m τ.before.rehearsal.scene result τ.after.rehearsal.scene := by
  obtain ⟨before, event, response, after⟩ := τ
  have hturned : Turned threshold before event response after := h.turned
  cases hturned with
  | keeps hentries hout => exact .inl ⟨mails_of_outbox_eq hout, hout⟩
  | removes hremove hstatus hentries hout => exact .inl ⟨mails_of_outbox_eq hout, hout⟩
  | purges hsend hentries hout => exact .inl ⟨mails_of_outbox_eq hout, hout⟩
  | cleans hentries hout => exact .inl ⟨mails_of_outbox_eq hout, hout⟩
  | @sends place w response result _ hw hstatus hsends =>
    refine .inr ⟨place, w.mailing, result, rfl, ?_, ⟨response, rfl, hstatus⟩, hsends⟩
    rw [request?_of_proceeds rfl hw]
    exact h.orderly.waiting w (List.mem_of_getElem? hw)

/-- The mail of a turn is that for the entries that it delivers, in their order. -/
theorem outbox_eq (h : τ.Regular threshold) :
    τ.after.rehearsal.outbox = τ.before.rehearsal.outbox ++ τ.mails ∧
      τ.mails.map some = τ.delivered.map τ.before.rehearsal.store.committed.mail? := by
  rcases h.sends_of_mails with ⟨hmails, hout⟩ | ⟨place, m, result, -, hm, -, hsends⟩
  · rw [delivered_of_mails_eq_nil hmails, hmails, List.append_nil]
    exact ⟨hout, rfl⟩
  · obtain ⟨fs, hfs, mails, hout, hmails⟩ := exists_prefix_of_sends hsends
    have hsame : τ.mails = mails := mails_of_outbox_append hout
    have hlength : mails.length = fs.length := by
      have hmap := congrArg List.length hmails
      rwa [List.length_map, List.length_map] at hmap
    have hdelivered : τ.delivered = fs := by
      simp only [delivered, hm, hsame, hlength]
      exact (List.prefix_iff_eq_take.mp hfs).symm
    rw [hsame, hdelivered]
    exact ⟨hout, hmails⟩

theorem gone_of_loses (h : τ.Regular threshold) (he : τ.loses e = true) : τ.after.Gone e := by
  obtain ⟨hbefore, hafter⟩ := loses_iff.mp he
  have hgiven := (h.orderly.rests.holds.entry_given e hbefore).2
  have hlast := h.precedes.lastEntry_le
  refine ⟨hafter, ?_⟩
  have hcommitted : τ.before.rehearsal.scene.store.committed.lastEntry =
      τ.before.rehearsal.store.committed.lastEntry := rfl
  omega

/-- An entry that is delivered is gone then, or the answer is 500. -/
theorem gone_of_delivered (h : τ.Regular threshold) (he : e ∈ τ.delivered) :
    e ∈ τ.before.entries ∧ τ.sends e.mailing = true ∧
      (τ.answers 500 = true ∨ τ.after.Gone e) := by
  rcases h.sends_of_mails with ⟨hmails, -⟩ | ⟨place, m, result, -, hm, ⟨response, hr, hs⟩, hsends⟩
  · rw [delivered_of_mails_eq_nil hmails] at he
    cases he
  · have hmem : e ∈ τ.before.entries.filter fun e => e.mailing == m := by
      simp only [delivered, hm] at he
      exact List.mem_of_mem_take he
    obtain ⟨hbefore, hmailing⟩ := List.mem_filter.mp hmem
    obtain rfl : e.mailing = m := beq_iff_eq.mp hmailing
    refine ⟨hbefore, by rw [sends, hm, beq_self_eq_true], ?_⟩
    generalize hscene : τ.after.rehearsal.scene = scene' at hsends
    have hentries : τ.after.entries = scene'.store.committed.entries := by
      rw [← hscene]
      rfl
    cases hsends with
    | all hdelivers =>
      refine .inr (h.gone_of_loses (loses_iff.mpr ⟨hbefore, ?_⟩))
      rw [hentries]
      intro hafter
      simpa using (List.mem_filter.mp hafter).2
    | nothing hstatus hnone =>
      have hempty : (τ.before.entries.filter fun f => f.mailing == e.mailing) = [] := hnone
      rw [hempty] at hmem
      cases hmem
    | broken ho hfs hdelivers =>
      left
      rw [answers, hr, Option.any_some, hs, ho.statusOf_eq]
      rfl

theorem count_delivered_le (h : τ.Regular threshold) (e : Entry) : τ.delivered.count e ≤ 1 := by
  have hnodup : τ.before.entries.Nodup :=
    h.orderly.rests.holds.entry_ids.imp fun hne heq => hne (congrArg Entry.id heq)
  refine List.nodup_iff_count.mp ?_ e
  unfold delivered
  split
  · exact hnodup.sublist ((List.take_sublist _ _).trans List.filter_sublist)
  · exact .nil

theorem exists_cause (h : τ.Regular threshold) (he : τ.loses e = true) :
    ∃ c : Cause, c.Explains threshold τ e := by
  obtain ⟨before, event, response, after⟩ := τ
  have hturned : Turned threshold before event response after := h.turned
  obtain ⟨hbefore, hafter⟩ : e ∈ before.entries ∧ e ∉ after.entries := loses_iff.mp he
  -- Whatever keeps only some of the entries has left out one that goes.
  have hleft : ∀ {p : Entry → Bool}, after.entries = before.entries.filter p → p e = false := by
    intro p hentries
    rw [hentries] at hafter
    cases hp : p e with
    | false => rfl
    | true => exact absurd (List.mem_filter.mpr ⟨hbefore, hp⟩) hafter
  cases hturned with
  | keeps hentries hout => exact absurd (hentries hbefore) hafter
  | @removes id r now x response _ hremove hstatus hentries hout =>
    have hid : e.id = x := by simpa using hleft hentries
    refine ⟨.removed, ?_, ?_⟩
    · rw [request?_of_arrives rfl, hid]
      exact hremove
    · rw [answers, Option.any_some, hstatus]
      rfl
  | @purges id r now m _ hsend hentries hout =>
    have hstale : e.mailing = m ∧ e.insertTime.before (Timestamp.cutoff now threshold) = true := by
      simpa using hleft hentries
    exact ⟨.purged, id, now, hstale.2, .inl ⟨r, rfl, hstale.1 ▸ hsend⟩⟩
  | @cleans id now _ hentries hout =>
    have hstale : e.insertTime.before (Timestamp.cutoff now threshold) = true := by
      simpa using hleft hentries
    exact ⟨.purged, id, now, hstale, .inr rfl⟩
  | @sends place w response result _ hw hstatus hsends =>
    have hsend : mailingToSend? w.request = some w.mailing :=
      h.orderly.waiting w (List.mem_of_getElem? hw)
    generalize hscene : after.rehearsal.scene = scene' at hsends
    have hentries : after.entries = scene'.store.committed.entries := by
      rw [← hscene]
      rfl
    cases hsends with
    | nothing | broken =>
      rw [hentries] at hafter
      exact absurd hbefore hafter
    | all hdelivers =>
      obtain ⟨mails, hout, hmails⟩ := hdelivers
      have hmailing : e.mailing = w.mailing := by simpa using hleft hentries
      refine ⟨.sent, ⟨place, rfl⟩, ?_, ?_, ?_⟩
      · rw [sends, request?_of_proceeds rfl hw, Option.bind_some, hsend, hmailing]
        exact beq_self_eq_true _
      · rw [answers, Option.any_some, hstatus]
        rfl
      · have hmem : before.rehearsal.store.committed.mail? e ∈ mails.map some := by
          rw [hmails]
          exact List.mem_map_of_mem (List.mem_filter.mpr ⟨hbefore, beq_iff_eq.mpr hmailing⟩)
        obtain ⟨mail, hmail, heq⟩ := List.mem_map.mp hmem
        refine ⟨mail, ?_, heq.symm⟩
        have hsame := congrArg Scene.outbox hscene
        rwa [mails_of_outbox_append (hsame.trans hout)]

end Regular

end Turn

/-! ## Whole runs -/

/-- How often an entry is delivered. -/
def deliveries (e : Entry) : List Turn → Nat
  | [] => 0
  | τ :: τs => τ.delivered.count e + deliveries e τs

/-- The number of requests to send a mailing that are answered with 500. -/
def failures (m : MailingId) (τs : List Turn) : Nat :=
  τs.countP fun τ => τ.sends m && τ.answers 500

theorem run_append (threshold : Time.Span) (t : Traffic) (es fs : List Event) :
    (run carrier threshold t (es ++ fs)).2 =
      (run carrier threshold (run carrier threshold t es).2 fs).2 := by
  induction es generalizing t with
  | nil => rfl
  | cons e es ih => exact ih _

theorem filter_loses_of_gone {e : Entry} (h : t.Orderly) (hgone : t.Gone e) (es : List Event) :
    (turns threshold t es).filter (·.loses e) = [] := by
  induction es generalizing t with
  | nil => rfl
  | cons f es ih =>
    have hkeeps : (turn threshold t f).loses e ≠ true := fun hloses =>
      hgone.1 (Turn.loses_iff.mp hloses).1
    rw [turns, List.filter_cons, if_neg hkeeps]
    exact ih (h.turn threshold f) (hgone.of_precedes (regular_turn h threshold f).precedes)

/-- What is stored at one time and not later has gone in one turn in between. -/
theorem exists_filter_loses {e : Entry} (h : t.Orderly) {es : List Event} (hbefore : e ∈ t.entries)
    (hafter : e ∉ (run carrier threshold t es).2.entries) :
    ∃ τ, (turns threshold t es).filter (·.loses e) = [τ] := by
  induction es generalizing t with
  | nil => exact absurd hbefore hafter
  | cons f es ih =>
    by_cases hnext : e ∈ (turn threshold t f).after.entries
    · have hkeeps : (turn threshold t f).loses e ≠ true := fun hloses =>
        (Turn.loses_iff.mp hloses).2 hnext
      rw [turns, List.filter_cons, if_neg hkeeps]
      exact ih (h.turn threshold f) hnext hafter
    · have hloses : (turn threshold t f).loses e = true := Turn.loses_iff.mpr ⟨hbefore, hnext⟩
      have hgone := (regular_turn h threshold f).gone_of_loses hloses
      rw [turns, List.filter_cons, if_pos hloses,
        filter_loses_of_gone (h.turn threshold f) hgone es]
      exact ⟨_, rfl⟩

theorem deliveries_of_gone {e : Entry} (h : t.Orderly) (hgone : t.Gone e) (es : List Event) :
    deliveries e (turns threshold t es) = 0 := by
  induction es generalizing t with
  | nil => rfl
  | cons f es ih =>
    have hnone : (turn threshold t f).delivered.count e = 0 :=
      List.count_eq_zero.mpr fun he =>
        hgone.1 ((regular_turn h threshold f).gone_of_delivered he).1
    rw [turns, deliveries, hnone]
    exact (Nat.zero_add _).trans
      (ih (h.turn threshold f) (hgone.of_precedes (regular_turn h threshold f).precedes))

theorem deliveries_le (h : t.Orderly) (es : List Event) (e : Entry) :
    deliveries e (turns threshold t es) ≤ 1 + failures e.mailing (turns threshold t es) := by
  induction es generalizing t with
  | nil => exact Nat.zero_le _
  | cons f es ih =>
    have hτ := regular_turn h threshold f
    have hlater : deliveries e (turns threshold (turn threshold t f).after es) ≤
        1 + failures e.mailing (turns threshold (turn threshold t f).after es) :=
      ih (h.turn threshold f)
    have hfailures : failures e.mailing (turns threshold t (f :: es)) =
        failures e.mailing (turns threshold (turn threshold t f).after es) +
          if (turn threshold t f).sends e.mailing && (turn threshold t f).answers 500 then 1 else 0 :=
      List.countP_cons
    rw [turns, deliveries, ← turns, hfailures]
    by_cases hdelivered : e ∈ (turn threshold t f).delivered
    · -- Either this is one of the failures, or it is the last delivery.
      have hcount := hτ.count_delivered_le e
      obtain ⟨-, hsends, hanswer | hgone⟩ := hτ.gone_of_delivered hdelivered
      · rw [hsends, hanswer, Bool.and_self, if_pos rfl]
        omega
      · have hlast : deliveries e (turns threshold (turn threshold t f).after es) = 0 :=
          deliveries_of_gone (h.turn threshold f) hgone es
        omega
    · rw [List.count_eq_zero.mpr hdelivered]
      omega

/-- An entry that is stored at one time and not later has gone in one turn and in one way: it was
removed, it was purged, or it was sent, and then its mail was accepted. Whatever fails, it is
delivered at most once more often than requests to send its mailing have failed. -/
theorem no_entry_lost_or_sent_twice (threshold : Time.Span) {r : Rehearsal}
    (hclosed : r.store.opened = none) (hsound : r.store.committed.Sound) :
    let start : Traffic := ⟨r, []⟩
    (∀ es fs e, e ∈ (run carrier threshold start es).2.entries →
      e ∉ (run carrier threshold start (es ++ fs)).2.entries →
      ∃ τ, (turns threshold (run carrier threshold start es).2 fs).filter (·.loses e) = [τ] ∧
        ∃ c : Turn.Cause, c.Explains threshold τ e ∧
          ∀ d : Turn.Cause, d.Explains threshold τ e → d = c) ∧
    ∀ es,
      (∀ τ ∈ turns threshold start es,
        τ.after.rehearsal.outbox = τ.before.rehearsal.outbox ++ τ.mails ∧
          τ.mails.map some = τ.delivered.map τ.before.rehearsal.store.committed.mail?) ∧
      ∀ e, deliveries e (turns threshold start es) ≤
        1 + failures e.mailing (turns threshold start es) := by
  intro start
  have hstart : start.Orderly := orderly_start hclosed hsound
  refine ⟨?_, fun es => ⟨fun τ hτ => (regular_of_mem_turns hstart hτ).outbox_eq,
    deliveries_le hstart es⟩⟩
  intro es fs e hbefore hafter
  have horderly := hstart.run threshold es
  rw [run_append] at hafter
  obtain ⟨τ, hτ⟩ := exists_filter_loses horderly hbefore hafter
  have hmem : τ ∈ (turns threshold (run carrier threshold start es).2 fs).filter (·.loses e) := by
    rw [hτ]
    exact List.mem_singleton_self τ
  obtain ⟨hturn, hloses⟩ := List.mem_filter.mp hmem
  obtain ⟨c, hc⟩ := (regular_of_mem_turns horderly hturn).exists_cause hloses
  exact ⟨τ, hτ, c, hc, fun d hd => Turn.Cause.unique hd hc⟩

/-- The first request to send cannot be committed, so its mail goes out once more. -/
theorem uncommitted_mail_goes_out_again :
    let e : Entry := ⟨⟨⟨1⟩, ⟨7⟩, "Hello", "World", .latest⟩, ⟨1⟩⟩
    let r : Rehearsal := { store := ⟨⟨[⟨⟨1⟩, "anna@example.com"⟩], [e], 1, 1⟩, none, 0⟩ }
    let sending := posted "/api/messages/send" "[7]"
    let es : List Event := [.arrives "a" sending .latest, .configure none { failCommit := some true },
      .proceeds 0, .configure none { failCommit := some false }]
    let fs : List Event := [.arrives "b" sending .latest, .proceeds 0]
    let threshold := Time.Span.ofSeconds 60
    r.store.opened = none ∧ r.store.committed.Sound ∧
      e ∈ (run carrier threshold ⟨r, []⟩ es).2.entries ∧
      e ∉ (run carrier threshold ⟨r, []⟩ (es ++ fs)).2.entries ∧
      (∃ τ ∈ turns threshold (run carrier threshold ⟨r, []⟩ es).2 fs,
        ∃ c : Turn.Cause, c.Explains threshold τ e) ∧
      deliveries e (turns threshold ⟨r, []⟩ (es ++ fs)) = 2 ∧
      2 ≤ 1 + failures e.mailing (turns threshold ⟨r, []⟩ (es ++ fs)) := by
  intro e r sending es fs threshold
  have hsound : r.store.committed.Sound :=
    ⟨by decide, by decide, by decide, by decide, by decide, by decide⟩
  have hbefore : e ∈ (run carrier threshold ⟨r, []⟩ es).2.entries := by decide +kernel
  have hafter : e ∉ (run carrier threshold ⟨r, []⟩ (es ++ fs)).2.entries := by decide +kernel
  have htwice : deliveries e (turns threshold ⟨r, []⟩ (es ++ fs)) = 2 := by decide +kernel
  obtain ⟨hlost, hsent⟩ := no_entry_lost_or_sent_twice threshold (r := r) rfl hsound
  obtain ⟨τ, hτ, c, hc, -⟩ := hlost es fs e hbefore hafter
  have hmem : τ ∈ (turns threshold (run carrier threshold ⟨r, []⟩ es).2 fs).filter (·.loses e) := by
    rw [hτ]
    exact List.mem_singleton_self τ
  exact ⟨rfl, hsound, hbefore, hafter, ⟨τ, (List.mem_filter.mp hmem).1, c, hc⟩, htwice,
    htwice ▸ (hsent (es ++ fs)).2 e⟩

end Traffic

end MailDispatch.Api
