import MailDispatch.Proofs.Service.Delivery
import MailDispatch.Proofs.Work.Carrying

/-! # Sending up to a refusal

The entries of a mailing are listed before the first of them is taken out. As long as its mail is
accepted each is found and taken out as listed, and the first refusal ends the loop: what was sent
before it is gone from the tables, and what comes after it was not looked at.
-/
namespace MailDispatch.Service
open Store Mailing Work Store.Tables

/-- What is asked for an entry whose mail is accepted. -/
def sendingPoints (p : Entry × Mail) : List Point :=
  [.call (.customerById p.1.customer), .deliver p.2, .call (.deleteEntry p.1.id)]

def refusedPoints (p : Entry × Mail) : List Point :=
  [.call (.customerById p.1.customer), .deliver p.2]

/-- The failure of a delivery, with the entry and its customer. -/
def refusedFailure (e : Entry) (r : String) : Failure :=
  .delivery ("error sending mailing entry " ++ e.id.text ++ " to customer " ++ e.customer.text) r

variable {σ : Type} {b : Backend σ} {scene : σ → Scene} {answers : Answers}
  {calm : List Point → σ → Prop} {past : List Point} {s : σ} {token : Token} {t : Tables}

section
variable (hb : b.Carries scene answers calm) (operation : Option Log.Operation)
include hb

theorem carries_asking (hs : calm past s) (opened : (scene s).store.opened = some (token, t))
    (step : String) {c : Call} {a : c.Answer} {u : Tables} (h : t.perform c = (.ok a, u)) :
    ∃ s', (asking step c).run b operation token s = (.value a, s') ∧
      calm (past ++ [.call c]) s' ∧
      scene s' = { scene s with store.opened := some (token, u) } := by
  obtain ⟨s', hcall, hs', hscene⟩ := hb.call hs token c
  rw [Locked.call_of_opened opened, h] at hcall hscene
  refine ⟨s', ?_, hs', hscene⟩
  simp only [asking, ask, mapError, Work.run, hcall]
  rfl

/-- The customer of a stored entry is found, and the mail of the entry is handed over. -/
theorem carries_sendEntry {e : Entry} {m : Mail} (hs : calm past s)
    (opened : (scene s).store.opened = some (token, t)) (sound : t.Sound) (stored : e ∈ t.entries)
    (addressed : t.mail? e = some m) :
    ∃ s', calm (past ++ [.call (.customerById e.customer)]) s' ∧ scene s' = scene s ∧
      (sendEntry carrier e).run b operation token s =
        (((carrier m).mapError (Failure.delivery ("error sending mailing entry " ++ e.id.text ++
            " to customer " ++ e.customer.text))).bind fun _ =>
          (report (removingSent e)).bind fun _ =>
            asking ("error deleting mailing entry " ++ e.id.text) (.deleteEntry e.id)).run
          b operation token s' := by
  obtain ⟨c, hfound, hmail⟩ := sound.perform_customerById stored
  obtain rfl := Option.some.inj (addressed.symm.trans hmail)
  obtain ⟨s', hrun, hs', hscene⟩ := carries_asking hb operation hs opened
    ("error finding customer " ++ e.customer.text ++ " for mailing entry " ++ e.id.text) hfound
  refine ⟨s', hs', ?_, ?_⟩
  · rw [hscene, ← opened]
  · refine (run_bind _ _ _ _ _ _).trans ?_
    rw [hrun]
    rfl

theorem carries_sendEntry_accepted {e : Entry} {es : List Entry} {m : Mail} (hs : calm past s)
    (opened : (scene s).store.opened = some (token, t)) (h : Removable (e :: es) t)
    (addressed : t.mail? e = some m) (accepted : answers (handed past) m = .ok ()) :
    ∃ s', (sendEntry carrier e).run b operation token s = (.value (), s') ∧
      calm (past ++ sendingPoints (e, m)) s' ∧
      scene s' = ⟨{ (scene s).store with opened := some (token, t.without [e]) },
        (scene s).outbox ++ [m]⟩ := by
  obtain ⟨s₁, hs₁, hscene₁, hrun₁⟩ := carries_sendEntry hb operation hs opened h.sound
    (h.stored e List.mem_cons_self) addressed
  obtain ⟨s₂, hdeliver, hs₂, hscene₂⟩ := hb.accept hs₁ ((handed_call _ _).symm ▸ accepted)
  obtain ⟨hs₃, hscene₃⟩ := hb.log hs₂ ⟨removingSent e, operation⟩
  rw [hscene₂, hscene₁] at hscene₃
  obtain ⟨s₄, hrun₄, hs₄, hscene₄⟩ := carries_asking hb operation hs₃ (by rw [hscene₃, opened])
    ("error deleting mailing entry " ++ e.id.text) h.perform
  rw [hscene₃] at hscene₄
  refine ⟨s₄, ?_, ?_, hscene₄⟩
  · rw [hrun₁, run_bind]
    simp only [carrier, mapError, Work.run, hdeliver]
    exact hrun₄
  · rw [List.append_assoc, List.append_assoc] at hs₄
    exact hs₄

theorem carries_sendEntry_refused {e : Entry} {m : Mail} {r : String} (hs : calm past s)
    (opened : (scene s).store.opened = some (token, t)) (sound : t.Sound) (stored : e ∈ t.entries)
    (addressed : t.mail? e = some m) (refused : answers (handed past) m = .error r) :
    ∃ s', (sendEntry carrier e).run b operation token s = (.error (refusedFailure e r), s') ∧
      calm (past ++ refusedPoints (e, m)) s' ∧ scene s' = scene s := by
  obtain ⟨s₁, hs₁, hscene₁, hrun₁⟩ :=
    carries_sendEntry hb operation hs opened sound stored addressed
  obtain ⟨s₂, hdeliver, hs₂, hscene₂⟩ := hb.refuse hs₁ ((handed_call _ _).symm ▸ refused)
  refine ⟨s₂, ?_, ?_, hscene₂.trans hscene₁⟩
  · rw [hrun₁, run_bind]
    simp only [carrier, mapError, Work.run, hdeliver]
    rfl
  · rw [List.append_assoc] at hs₂
    exact hs₂

/-- The entries are sent one after the other, up to the first whose mail is refused. -/
theorem carries_each_sendEntry {es : List Entry} (hs : calm past s)
    (opened : (scene s).store.opened = some (token, t)) (h : Removable es t) :
    ∃ (sent : List (Entry × Mail)) (rest : List Entry) (s' : σ),
      es = sent.map Prod.fst ++ rest ∧ (∀ p ∈ sent, t.mail? p.1 = some p.2) ∧
      Accepted answers (handed past) (sent.map Prod.snd) ∧
      scene s' = ⟨{ (scene s).store with opened := some (token, t.without (sent.map Prod.fst)) },
        (scene s).outbox ++ sent.map Prod.snd⟩ ∧
      match rest with
      | [] => (each (sendEntry carrier) es).run b operation token s = (.value (), s') ∧
          calm (past ++ sent.flatMap sendingPoints) s'
      | e :: _ => ∃ m r, t.mail? e = some m ∧
          answers (handed past ++ sent.map Prod.snd) m = .error r ∧
          (each (sendEntry carrier) es).run b operation token s =
            (.error (refusedFailure e r), s') ∧
          calm (past ++ sent.flatMap sendingPoints ++ refusedPoints (e, m)) s' := by
  induction es generalizing past s t with
  | nil =>
    refine ⟨[], [], s, rfl, List.forall_mem_nil _, trivial, ?_, rfl, ?_⟩
    · rw [List.map_nil, without_nil, List.map_nil, List.append_nil, ← opened]
    · rwa [List.flatMap_nil, List.append_nil]
  | cons e es ih =>
    have hstored := h.stored e List.mem_cons_self
    obtain ⟨c, -, hmail⟩ := h.sound.perform_customerById hstored
    cases hanswer : answers (handed past) ⟨c.email, e.title, e.content⟩ with
    | error r =>
      obtain ⟨s', hrun, hs', hscene⟩ :=
        carries_sendEntry_refused hb operation hs opened h.sound hstored hmail hanswer
      refine ⟨[], e :: es, s', rfl, List.forall_mem_nil _, trivial, ?_, _, r, hmail, ?_, ?_, ?_⟩
      · rw [hscene, List.map_nil, without_nil, List.map_nil, List.append_nil, ← opened]
      · rwa [List.map_nil, List.append_nil]
      · rw [each, run_bind, hrun]
      · rwa [List.flatMap_nil, List.append_nil]
    | ok u =>
      obtain ⟨s₁, hrun₁, hs₁, hscene₁⟩ :=
        carries_sendEntry_accepted hb operation hs opened h hmail hanswer
      have hhanded : handed (past ++ sendingPoints (e, ⟨c.email, e.title, e.content⟩)) =
          handed past ++ [⟨c.email, e.title, e.content⟩] := handed_append _ _
      -- Taking the entry out leaves the customers, so the later mail is what it was.
      obtain ⟨sent, rest, s₂, hsplit, haddressed, haccepted, hscene₂, hend⟩ :=
        ih hs₁ (by rw [hscene₁]) h.tail
      rw [hhanded] at haccepted hend
      refine ⟨(e, ⟨c.email, e.title, e.content⟩) :: sent, rest, s₂, congrArg (e :: ·) hsplit,
        List.forall_mem_cons.mpr ⟨hmail, haddressed⟩, ⟨hanswer, haccepted⟩, ?_, ?_⟩
      · rw [hscene₂, hscene₁, without_append, List.append_assoc]
        rfl
      · cases rest with
        | nil =>
          obtain ⟨hrun₂, hs₂⟩ := hend
          refine ⟨?_, ?_⟩
          · rw [each, run_bind, hrun₁]
            exact hrun₂
          · rwa [List.append_assoc, ← List.flatMap_cons] at hs₂
        | cons f rest =>
          obtain ⟨m, r, hmail₂, hrefused, hrun₂, hs₂⟩ := hend
          refine ⟨m, r, hmail₂, ?_, ?_, ?_⟩
          · rwa [List.append_assoc] at hrefused
          · rw [each, run_bind, hrun₁]
            exact hrun₂
          · rwa [List.append_assoc past, ← List.flatMap_cons] at hs₂

end

/-- Once the entries are listed, the mailing is not found or they are sent. -/
theorem run_sendMailing {operation : Option Log.Operation} {m : MailingId} {es : List Entry}
    {s' : σ} (listed : (asking "error listing mailing entries" (.entriesOfMailing m)).run
      b operation token s = (.value es, s')) :
    (sendMailing carrier m).run b operation token s =
      if es = [] then (.error (.rejected (.notFound "no mailing entries to send")), s')
      else Work.run b operation token ((each (sendEntry carrier) es).bind fun _ => done es.length)
        s' := by
  refine (run_bind _ _ _ _ _ _).trans ?_
  rw [listed]
  cases es <;> rfl

/-- Where the store does all that it is asked, a mailing is sent entry by entry in the order of the
table, each to its own customer, up to the first whose mail is refused. The entries before that one
are taken out, and nothing else in the tables changes. The answer is the number of entries if no
mail is refused, and otherwise the failure of that delivery, after which nothing more is asked for.
A mailing without entries is not found. -/
theorem sending_stops_at_first_refusal (hb : b.Carries scene answers calm) (hs : calm [] s)
    (opened : (scene s).store.opened = some (token, t)) (sound : t.Sound)
    (operation : Option Log.Operation) (m : MailingId) :
    let es := t.entries.filter fun e => e.mailing == m
    let ran := (sendMailing carrier m).run b operation token s
    ∃ asked : List Query,
      (sendMailing carrier m).run b.traced operation token (s, []) = (ran.1, ran.2, asked) ∧
      (es = [] →
        ran.1 = .error (.rejected (.notFound "no mailing entries to send")) ∧
        scene ran.2 = scene s ∧
        asked.filterMap Query.point? = [.call (.entriesOfMailing m)]) ∧
      (es ≠ [] → ∃ (sent : List (Entry × Mail)) (rest : List Entry),
        es = sent.map Prod.fst ++ rest ∧
        (∀ p ∈ sent, t.mail? p.1 = some p.2) ∧
        Accepted answers [] (sent.map Prod.snd) ∧
        scene ran.2 =
          ⟨{ (scene s).store with
              opened := some (token,
                { t with entries := t.entries.filter fun e => e ∉ sent.map Prod.fst }) },
            (scene s).outbox ++ sent.map Prod.snd⟩ ∧
        match rest with
        | [] => ran.1 = .value es.length ∧
            asked.filterMap Query.point? =
              .call (.entriesOfMailing m) :: sent.flatMap sendingPoints
        | e :: _ => ∃ mail r, t.mail? e = some mail ∧
            answers (sent.map Prod.snd) mail = .error r ∧
            ran.1 = .error (.delivery ("error sending mailing entry " ++ e.id.text ++
              " to customer " ++ e.customer.text) r) ∧
            asked.filterMap Query.point? =
              .call (.entriesOfMailing m) :: sent.flatMap sendingPoints ++
                [.call (.customerById e.customer), .deliver mail]) := by
  intro es ran
  obtain ⟨asked, -, htraced⟩ := Work.run_traced b operation token (sendMailing carrier m) s []
  refine ⟨asked, htraced, ?_⟩
  -- The watched run tells the same, and keeps what it was asked for.
  obtain ⟨s₁, hrun₁, ⟨hs₁, hasked₁⟩, hscene₁⟩ := carries_asking hb.traced operation (s := (s, []))
    ⟨hs, rfl⟩ opened "error listing mailing entries" (c := .entriesOfMailing m) rfl
  have hrun := htraced.symm.trans (run_sendMailing hrun₁)
  refine ⟨fun hnone => ?_, fun hsome => ?_⟩
  · rw [if_pos hnone] at hrun
    obtain ⟨houtcome, hrest⟩ := Prod.mk.inj hrun
    obtain rfl : (ran.2, asked) = s₁ := hrest
    exact ⟨houtcome, hscene₁.trans (by rw [← opened]), hasked₁⟩
  · obtain ⟨sent, rest, s₂, hsplit, haddressed, haccepted, hscene₂, hend⟩ :=
      carries_each_sendEntry hb.traced operation ⟨hs₁, hasked₁⟩ (by rw [hscene₁])
        (Removable.filter sound fun e => e.mailing == m)
    have hstored : ∀ e ∈ sent.map Prod.fst, e ∈ t.entries := fun e he =>
      (List.mem_filter.mp (hsplit ▸ List.mem_append_left rest he)).1
    have hleft := sound.without_of_stored hstored
    rw [hscene₁, hleft] at hscene₂
    rw [if_neg hsome, run_bind] at hrun
    cases rest with
    | nil =>
      obtain ⟨hrun₂, hs₂, hasked₂⟩ := hend
      rw [hrun₂] at hrun
      obtain ⟨houtcome, hrest⟩ := Prod.mk.inj hrun
      obtain rfl : (ran.2, asked) = s₂ := hrest
      exact ⟨sent, [], hsplit, haddressed, haccepted, hscene₂, houtcome, hasked₂⟩
    | cons e rest =>
      obtain ⟨mail, r, hmail, hrefused, hrun₂, hs₂, hasked₂⟩ := hend
      rw [hrun₂] at hrun
      obtain ⟨houtcome, hrest⟩ := Prod.mk.inj hrun
      obtain rfl : (ran.2, asked) = s₂ := hrest
      exact ⟨sent, e :: rest, hsplit, haddressed, haccepted, hscene₂, mail, r, hmail, hrefused,
        houtcome, hasked₂⟩

/-- The carrier refuses the second mail. Of the three entries of the mailing the first is taken out,
the second is handed over and stays, and the third is left alone, as is the entry of the other
mailing. -/
theorem second_mail_refused :
    let first : Entry := ⟨⟨⟨1⟩, ⟨7⟩, "Hello", "World", .earliest⟩, ⟨1⟩⟩
    let elsewhere : Entry := { first with id := ⟨2⟩, mailing := ⟨8⟩ }
    let second : Entry := { first with id := ⟨3⟩, customer := ⟨2⟩ }
    let third : Entry := { first with id := ⟨4⟩, title := "Again" }
    let t : Tables := ⟨[⟨⟨1⟩, "anna@example.com"⟩, ⟨⟨2⟩, "ben@example.com"⟩],
      [first, elsewhere, second, third], 2, 4⟩
    let answers : Answers := fun before _ =>
      if before.length = 1 then .error "mailbox full" else .ok ()
    let s : Injected := { plan := Injected.refusing answers, store := ⟨t, some (0, t), 1⟩ }
    let ran := (sendMailing carrier ⟨7⟩).run Injected.backend none 0 s
    s.store.opened = some (0, t) ∧ t.Sound ∧
      ran.1 = .error (.delivery "error sending mailing entry 3 to customer 2" "mailbox full") ∧
      ran.2.store.opened = some (0, { t with entries := [elsewhere, second, third] }) ∧
      ran.2.outbox = [⟨"anna@example.com", "Hello", "World"⟩] ∧
      ran.2.past.reverse = [.call (.entriesOfMailing ⟨7⟩), .call (.customerById ⟨1⟩),
        .deliver ⟨"anna@example.com", "Hello", "World"⟩, .call (.deleteEntry ⟨1⟩),
        .call (.customerById ⟨2⟩), .deliver ⟨"ben@example.com", "Hello", "World"⟩] ∧
      ∃ (sent : List (Entry × Mail)) (rest : List Entry),
        [first, second, third] = sent.map Prod.fst ++ rest ∧
        Accepted answers [] (sent.map Prod.snd) ∧ ran.2.outbox = sent.map Prod.snd := by
  intro first elsewhere second third t answers s ran
  have hopened : (Injected.scene s).store.opened = some (0, t) := rfl
  have hsound : t.Sound := ⟨by decide, by decide, by decide, by decide, by decide, by decide⟩
  have hcomputed :
      ran.1 = .error (.delivery "error sending mailing entry 3 to customer 2" "mailbox full") ∧
        ran.2.store.opened = some (0, { t with entries := [elsewhere, second, third] }) ∧
        ran.2.outbox = [⟨"anna@example.com", "Hello", "World"⟩] ∧
        ran.2.past.reverse = [.call (.entriesOfMailing ⟨7⟩), .call (.customerById ⟨1⟩),
          .deliver ⟨"anna@example.com", "Hello", "World"⟩, .call (.deleteEntry ⟨1⟩),
          .call (.customerById ⟨2⟩), .deliver ⟨"ben@example.com", "Hello", "World"⟩] := by
    decide +kernel
  obtain ⟨asked, -, -, hsending⟩ := sending_stops_at_first_refusal (Injected.carries answers)
    ⟨rfl, rfl⟩ hopened hsound none ⟨7⟩
  obtain ⟨sent, rest, hsplit, -, haccepted, hscene, -⟩ := hsending (by decide)
  obtain ⟨houtcome, hleft, hout, hpast⟩ := hcomputed
  exact ⟨hopened, hsound, houtcome, hleft, hout, hpast, sent, rest, hsplit, haccepted,
    congrArg Scene.outbox hscene⟩

end MailDispatch.Service
