import MailDispatch.Proofs.Api.Accounts
import MailDispatch.Proofs.Api.Reports
import MailDispatch.Proofs.Identifier
import MailDispatch.Proofs.Work.Calls

/-! # Requests to remove an entry

The last segment of the path names the entry, by any numeral of its identifier. The store is asked
for that entry, and only for it. A request that names none is refused before a transaction is
opened.
-/
namespace MailDispatch
open Store Work Mailing

variable {σ : Type}

/-! ## The work of a removal -/

/-- The work tells what it is about, asks for the entry, and ends whatever the answer is. -/
theorem Service.exists_remove_eq (entry : MailingEntryId) :
    ∃ next, Service.remove entry = .log (Service.removing entry) (.call (.deleteEntry entry) next) ∧
      ∀ r, (∃ u, next r = .done u) ∨ ∃ e, next r = .fail e := by
  refine ⟨_, rfl, ?_⟩
  rintro (p | u)
  · dsimp only
    split
    · exact .inr ⟨_, rfl⟩
    · exact .inr ⟨_, rfl⟩
  · exact .inl ⟨_, rfl⟩

theorem Service.run_traced_remove (b : Backend σ) (operation : Option Log.Operation) (token : Token)
    (entry : MailingEntryId) (s : σ) (before : List Query) :
    (Service.remove entry).run b.traced operation token (s, before) =
      (((Service.remove entry).run b operation token s).1,
        ((Service.remove entry).run b operation token s).2,
        before ++ [.log ⟨Service.removing entry, operation⟩, .call token (.deleteEntry entry)]) := by
  obtain ⟨next, hremove, hends⟩ := Service.exists_remove_eq entry
  have hasked : b.traced.call token (.deleteEntry entry)
      (b.traced.log ⟨Service.removing entry, operation⟩ (s, before)) =
      ((b.call token (.deleteEntry entry) (b.log ⟨Service.removing entry, operation⟩ s)).1,
        (b.call token (.deleteEntry entry) (b.log ⟨Service.removing entry, operation⟩ s)).2,
        before ++ [.log ⟨Service.removing entry, operation⟩, .call token (.deleteEntry entry)]) := by
    simp [Backend.traced]
  simp only [hremove, Work.run, hasked]
  rcases b.call token (.deleteEntry entry) (b.log ⟨Service.removing entry, operation⟩ s) with
    ⟨u | p | x, t⟩
  · rcases hends (.ok u) with ⟨v, hnext⟩ | ⟨e, hnext⟩ <;> simp only [hnext, Work.run]
  · rcases hends (.error p) with ⟨v, hnext⟩ | ⟨e, hnext⟩ <;> simp only [hnext, Work.run]
  · rfl

/-- The store is asked for the entry once, if the transaction can be opened. -/
theorem Transaction.transcript_remove (b : Backend σ) (operation : Option Log.Operation)
    (entry : MailingEntryId) (s : σ) (before : List Query) :
    ∃ asked,
      Transcript b operation (Service.remove entry) s asked
        (within b operation (Service.remove entry) s).1 ∧
      within b.traced operation (Service.remove entry) (s, before) =
        ((within b operation (Service.remove entry) s).1,
          (within b operation (Service.remove entry) s).2, before ++ asked) ∧
      asked.filterMap Query.call? =
        if asked.any Query.opens then [.deleteEntry entry] else [] := by
  obtain ⟨asked, htranscript, hwithin⟩ :=
    transcript_within b operation (Service.remove entry) s before
  refine ⟨asked, htranscript, hwithin, ?_⟩
  generalize hended : (within b operation (Service.remove entry) s).1 = ended at htranscript
  cases htranscript with
  | beginCrashed crashes => rfl
  | notBegun runs refused => rfl
  | begun runs opened ofWork closed =>
    obtain ⟨closing, hclosing, hclosed⟩ := closing_within b operation (Service.remove entry) runs
      opened (Service.run_traced_remove b operation _ entry (b.begin s).2 _)
    rw [hwithin] at hclosed
    have hasked := List.append_cancel_left (congrArg (fun x => x.2.2) hclosed)
    rw [hasked, List.filterMap_append, hclosing.filterMap_call?]
    rfl

namespace Api
open Text Http

/-! ## The entry that is named -/

/-- The path of the request ends with a segment that denotes the identifier of the entry. -/
def Names (r : Request) (entry : MailingEntryId) : Prop :=
  ∃ segment text, r.target.path = "/api/messages/" ++ segment ∧ '/' ∉ segment.toList ∧
    segmentText? segment = some text ∧ Numeral.Denotes text.toList entry.val ∧
    Numeral.Bounds.int64.Contains entry.val

theorem path_of_segments {t : Target} {segment : String}
    (h : t.segments = some ["api", "messages", segment]) :
    t.path = "/api/messages/" ++ segment ∧ '/' ∉ segment.toList := by
  unfold Target.segments at h
  split at h
  · next rest hpath =>
    have hsplit : split '/' rest = ["api".toList, "messages".toList, segment.toList] := by
      have hlists := congrArg (List.map String.toList) (Option.some.inj h)
      simpa using hlists
    have hrest : rest = "api/messages/".toList ++ segment.toList := by
      rw [← join_split '/' rest, hsplit]
      rfl
    have hmem : segment.toList ∈ split '/' rest := by simp [hsplit]
    refine ⟨String.toList_inj.mp ?_, not_mem_of_mem_split hmem⟩
    rw [hpath, hrest, String.toList_append]
    rfl
  · cases h

theorem exists_of_matchPath_text {t : String} {ps : List Piece} {pieces : List String}
    {holes : List (String × String)} (h : matchPath (.text t :: ps) pieces = some holes) :
    ∃ rest, pieces = t :: rest ∧ matchPath ps rest = some holes := by
  cases pieces with
  | nil => cases h
  | cons s rest =>
    simp only [matchPath] at h
    split at h
    · next hs => exact ⟨rest, by rw [hs], h⟩
    · cases h

theorem exists_of_matchPath_hole {name : String} {pieces : List String}
    {holes : List (String × String)} (h : matchPath [.hole name] pieces = some holes) :
    ∃ s, pieces = [s] ∧ holes = [(name, s)] := by
  obtain _ | ⟨s, _ | ⟨t, rest⟩⟩ := pieces
  · cases h
  · simp only [matchPath] at h
    split at h
    · cases h
    · exact ⟨s, rfl, (Option.some.inj h).symm⟩
  · simp [matchPath] at h

theorem exists_of_route_remove {r : Request} {segments : List String}
    (h : route messageRoutes r = .found .remove segments) :
    r.method = "DELETE" ∧ ∃ segment text, r.target.path = "/api/messages/" ++ segment ∧
      '/' ∉ segment.toList ∧ segmentText? segment = some text ∧ segments = [text] := by
  refine ⟨List.mem_singleton.mp (method_of_route h), ?_⟩
  obtain ⟨q, hq, hendpoint, -, pieces, holes, hpieces, hholes, htexts⟩ := exists_of_route_found h
  simp only [messageRoutes, List.mem_cons, List.not_mem_nil, or_false] at hq
  rcases hq with rfl | rfl | rfl | rfl
  · cases hendpoint
  · cases hendpoint
  · cases hendpoint
  · obtain ⟨behind, rfl, hbehind⟩ := exists_of_matchPath_text hholes
    obtain ⟨last, rfl, hlast⟩ := exists_of_matchPath_text hbehind
    obtain ⟨segment, rfl, rfl⟩ := exists_of_matchPath_hole hlast
    obtain ⟨hpath, hslash⟩ := path_of_segments hpieces
    simp only [decodeSegments] at htexts
    cases htext : segmentText? segment with
    | none =>
      rw [htext] at htexts
      cases htexts
    | some text =>
      rw [htext] at htexts
      exact ⟨segment, text, hpath, hslash, htext, (Except.ok.inj htexts).symm⟩

theorem entryToRemove?_eq_some_iff {r : Request} {entry : MailingEntryId} :
    entryToRemove? r = some entry ↔ r.method = "DELETE" ∧ Names r entry := by
  unfold entryToRemove?
  constructor
  · intro h
    split at h
    · next segments hroute =>
      obtain ⟨hmethod, segment, text, hpath, hslash, htext, rfl⟩ := exists_of_route_remove hroute
      obtain ⟨hdenotes, hwithin⟩ := Id.parse_eq_ok_iff.mp (toOption_eq_some_iff.mp h)
      exact ⟨hmethod, segment, text, hpath, hslash, htext, hdenotes, hwithin⟩
    · cases h
  · rintro ⟨hmethod, segment, text, hpath, hslash, htext, hdenotes, hwithin⟩
    have hparse : Id.parse .mailingEntry text = .ok entry :=
      Id.parse_eq_ok_iff.mpr ⟨hdenotes, hwithin⟩
    -- the only segments that lead elsewhere, and neither of them is a numeral
    have hempty : segment ≠ "" := by
      rintro rfl
      have hnone : segmentText? "" = some "" := by decide +kernel
      obtain rfl := Option.some.inj (hnone.symm.trans htext)
      cases hparse
    have hsend : segment ≠ "send" := by
      rintro rfl
      have hword : segmentText? "send" = some "send" := by decide +kernel
      obtain rfl := Option.some.inj (hword.symm.trans htext)
      cases hparse
    rw [route_remove hmethod hpath hslash hempty hsend, htext]
    exact toOption_eq_some_iff.mpr hparse

/-! ## Requests -/

theorem ofEnded_eq_value_iff {α : Type} {ended : Ended Service.Failure α} {a : α} :
    ofEnded ended = .value a ↔ ended = .value a := by
  cases ended <;> simp [ofEnded]

theorem Error.status_ne_ok (e : Error) : e.status ≠ 200 := by
  unfold Error.status
  split <;> decide

theorem Routed.status_of_refusal {α : Type} {x : Routed α} {response : Response}
    (h : x.refusal? = some response) : 400 ≤ response.status ∧ response.status < 500 := by
  cases x with
  | unknown | notAllowed | badSegment =>
    obtain rfl := Option.some.inj h
    exact ⟨Nat.le_of_ble_eq_true rfl, Nat.le_of_ble_eq_true rfl⟩
  | found => cases h

section
variable (app : App σ) {r : Request} {entry : MailingEntryId} (o : Log.Operation) (s : σ)

theorem App.handler_of_refusal {response : Response}
    (h : (route messageRoutes r).refusal? = some response) :
    app.handler r o s = (⟨.value response, o⟩, s) := by
  unfold App.handler
  cases hroute : route messageRoutes r with
  | unknown | notAllowed | badSegment =>
    rw [hroute] at h
    simp only [h, Option.getD_some]
  | found =>
    rw [hroute] at h
    cases h

/-- A request that names an entry is handled by removing it, and succeeds if that is committed. -/
theorem App.handler_of_named (h : entryToRemove? r = some entry) :
    let removed := app.within (o.named "delete mailing entry with ID") (Service.remove entry) s
    (app.handler r o s).2 = removed.2 ∧
      (statusOf (app.handler r o s).1.result = 200 ↔ removed.1 = .value ()) := by
  unfold entryToRemove? at h
  split at h
  · next segments hroute =>
    simp only [App.handler, hroute, App.remove, toOption_eq_some_iff.mp h]
    rcases app.within (o.named "delete mailing entry with ID") (Service.remove entry) s with
      ⟨u | e | c, s'⟩
    · exact ⟨rfl, ⟨fun _ => rfl, fun _ => rfl⟩⟩
    · refine ⟨rfl, fun hstatus => absurd hstatus e.status_ne_ok, fun hvalue => ?_⟩
      cases hvalue
    · refine ⟨rfl, fun hstatus => ?_, fun hvalue => ?_⟩
      · cases hstatus
      · cases hvalue
  · cases h

/-- A request to remove that names no entry is refused, and nothing else becomes of it. -/
theorem App.handler_of_unnamed (hmethod : r.method = "DELETE") (h : entryToRemove? r = none) :
    (app.handler r o s).2 = s ∧ 400 ≤ statusOf (app.handler r o s).1.result ∧
      statusOf (app.handler r o s).1.result < 500 := by
  cases hroute : route messageRoutes r with
  | unknown | notAllowed | badSegment =>
    have hrefusal : (route messageRoutes r).refusal? = some _ := congrArg Routed.refusal? hroute
    rw [app.handler_of_refusal o s hrefusal]
    exact ⟨rfl, Routed.status_of_refusal hrefusal⟩
  | found endpoint segments =>
    have hallowed := method_of_route hroute
    rw [hmethod] at hallowed
    cases endpoint with
    | health | create | send => exact absurd hallowed (by decide)
    | remove =>
      simp only [entryToRemove?, hroute] at h
      cases hparse : Id.parse .mailingEntry (segments.headD "") with
      | ok entry =>
        rw [hparse] at h
        cases h
      | error rejection =>
        obtain ⟨p, -, rfl⟩ := Id.parse_eq_error_iff.mp hparse
        simp only [App.handler, hroute, App.remove, hparse]
        exact ⟨trivial, Nat.le_refl _, Nat.le_of_ble_eq_true rfl⟩

end

/-- All that a watched request asks for beside what its handler does is to log records. -/
theorem App.respond_traced (b : Backend σ) (emailer : Service.Emailer) (threshold : Time.Span)
    (now : Time.Timestamp) (id : String) (r : Request) (s : σ) :
    let app : App (σ × List Query) := ⟨b.traced, emailer, threshold, now⟩
    let begun : Log.Record := ⟨beginEvent, some (operationOf r id)⟩
    let handled := app.handler r (operationOf r id) (b.log begun s, [.log begun])
    ∃ records : List Log.Record,
      (app.respond id r (s, [])).2 = (records.foldl (fun s x => b.log x s) handled.2.1,
        handled.2.2 ++ records.map .log) ∧
      (app.respond id r (s, [])).1.status = statusOf handled.1.result := by
  intro app begun handled
  have hrespond : app.respond id r (s, []) =
      conclude b.traced.log id r handled.1 handled.2 := handle_eq _ _ _ _ _
  obtain ⟨records, hrecords⟩ := exists_records_conclude b.traced.log id r handled.1 handled.2
  rw [hrespond, hrecords, b.foldl_traced records handled.2.1 handled.2.2]
  exact ⟨records, rfl, status_conclude _ _ _ _ _⟩

/-- An identifier of any kind is read from the numerals of its number and from nothing else, its own
text is one of them, and any other text is rejected for its first problem. So a request to remove
asks the store for no entry but the one that its path names. If it names none, it is refused, and
all that is asked for is to log that. -/
theorem identifiers_are_read_from_numerals :
    (∀ (k : IdKind) (s : String),
      (∀ i : Id k, Id.parse k s = .ok i ↔
        Numeral.Denotes s.toList i.val ∧ Numeral.Bounds.int64.Contains i.val) ∧
      (∀ rejection, Id.parse k s = .error rejection ↔
        ∃ p, Numeral.FirstProblem .int64 s.toList p ∧
          rejection = .invalidId (k.label ++ ": " ++ p.message)) ∧
      (Id.parse k s = .error (.invalidId (k.label ++ ": " ++ Numeral.Problem.empty.message)) ↔
        s = "") ∧
      ∀ i : Id k, Numeral.Bounds.int64.Contains i.val → Id.parse k i.text = .ok i) ∧
    ∀ {σ : Type} (b : Backend σ) (emailer : Service.Emailer) (threshold : Time.Span)
      (now : Time.Timestamp) (id : String) (r : Request) (s : σ), r.method = "DELETE" →
      let app : App (σ × List Query) := ⟨b.traced, emailer, threshold, now⟩
      let response := (app.respond id r (s, [])).1
      let begun : Log.Record := ⟨beginEvent, some (operationOf r id)⟩
      let o := (operationOf r id).named "delete mailing entry with ID"
      (∀ entry, Names r entry →
        let ended := (Transaction.within b (some o) (Service.remove entry) (b.log begun s)).1
        (response.status = 200 ↔ ended = .value ()) ∧
        ∃ (asked : List Query) (records : List Log.Record),
          (app.respond id r (s, [])).2.2 = .log begun :: asked ++ records.map .log ∧
          Transaction.Transcript b (some o) (Service.remove entry) (b.log begun s) asked ended ∧
          asked.filterMap Query.call? =
            if asked.any Query.opens then [.deleteEntry entry] else []) ∧
      ((∀ entry, ¬ Names r entry) →
        (400 ≤ response.status ∧ response.status < 500) ∧
        ∃ records : List Log.Record, (app.respond id r (s, [])).2 =
          (records.foldl (fun s x => b.log x s) s, records.map .log)) := by
  refine ⟨fun k s => ⟨fun i => Id.parse_eq_ok_iff, fun rejection => Id.parse_eq_error_iff,
    Id.parse_eq_error_empty_iff, fun i => Id.parse_text⟩, ?_⟩
  intro σ b emailer threshold now id r s hmethod app response begun o
  obtain ⟨records, hstate, hstatus⟩ := App.respond_traced b emailer threshold now id r s
  constructor
  · intro entry hnames ended
    obtain ⟨asked, htranscript, hwithin, hcalls⟩ :=
      Transaction.transcript_remove b (some o) entry (b.log begun s) [.log begun]
    obtain ⟨hhandled, hsucceeds⟩ := app.handler_of_named (operationOf r id)
      (b.log begun s, [.log begun]) (entryToRemove?_eq_some_iff.mpr ⟨hmethod, hnames⟩)
    have hremoved : app.within o (Service.remove entry) (b.log begun s, [.log begun]) =
        (ofEnded ended, (Transaction.within b (some o) (Service.remove entry) (b.log begun s)).2,
          [.log begun] ++ asked) :=
      congrArg (fun ran => (ofEnded ran.1, ran.2)) hwithin
    rw [hremoved] at hhandled hsucceeds
    refine ⟨?_, asked, records, ?_, htranscript, hcalls⟩
    · rw [show response.status = _ from hstatus, hsucceeds, ofEnded_eq_value_iff]
    · rw [hstate, hhandled]
      rfl
  · intro hnone
    have hunnamed : entryToRemove? r = none := by
      refine Option.eq_none_iff_forall_ne_some.mpr fun entry h => ?_
      exact hnone entry (entryToRemove?_eq_some_iff.mp h).2
    obtain ⟨hhandled, hrefused⟩ := app.handler_of_unnamed (operationOf r id)
      (b.log begun s, [.log begun]) hmethod hunnamed
    refine ⟨?_, begun :: records, ?_⟩
    · rw [show response.status = _ from hstatus]
      exact hrefused
    · rw [hstate, hhandled]
      rfl

theorem numerals_at_the_limits_are_told_apart :
    let app : App (Rehearsal × List Query) :=
      ⟨Rehearsal.backend.traced, Service.carrier, .ofMillis 1000, .earliest⟩
    let named := app.respond "a" (deletion "%2B07") ({}, [])
    let unnamed := app.respond "a" (deletion "9223372036854775808") ({}, [])
    Id.parse .mailing "-09223372036854775808" = .ok ⟨-9223372036854775808⟩ ∧
    Id.parse .mailing (Id.text (⟨-9223372036854775808⟩ : MailingId)) =
      .ok ⟨-9223372036854775808⟩ ∧
    Id.parse .customer "-9223372036854775809x" =
      .error (.invalidId "CustomerId: number too small to fit in target type") ∧
    (Names (deletion "%2B07") ⟨7⟩ ∧ named.1.status ≠ 200 ∧
      named.2.2.filterMap Query.call? = [.deleteEntry ⟨7⟩]) ∧
    (∀ entry, ¬ Names (deletion "9223372036854775808") entry) ∧ 400 ≤ unnamed.1.status ∧
      ∃ records : List Log.Record,
        unnamed.2 = (records.foldl (fun s x => Rehearsal.record x s) {}, records.map .log) := by
  intro app named unnamed
  obtain ⟨hread, hremoved⟩ := identifiers_are_read_from_numerals
  have hlowest : Numeral.Denotes "-09223372036854775808".toList (-9223372036854775808) :=
    ⟨.minus, "09223372036854775808".toList, .minus _, by decide, List.all_eq_true.mp (by decide),
      by decide⟩
  have hleaves : Numeral.Stops .int64 .minus ("922337203685477580".toList ++ '9' :: ['x'])
      .tooSmall := .overflows ⟨List.all_eq_true.mp (by decide), by decide⟩ (by decide) (by decide)
  have hproblem : Numeral.FirstProblem .int64 "-9223372036854775809x".toList .tooSmall :=
    .stops (.minus _) hleaves
  have hseven : Numeral.Denotes "+07".toList 7 :=
    ⟨.plus, "07".toList, .plus _, by decide, List.all_eq_true.mp (by decide), by decide⟩
  have hnamed : Names (deletion "%2B07") ⟨7⟩ :=
    ⟨"%2B07", "+07", rfl, by decide, by decide +kernel, hseven, by decide⟩
  have hunnamed : ∀ entry, ¬ Names (deletion "9223372036854775808") entry := by
    rintro entry ⟨segment, text, hpath, -, htext, hnumber⟩
    obtain rfl : "9223372036854775808" = segment := segment_inj hpath
    have hsegment : segmentText? "9223372036854775808" = some "9223372036854775808" := by
      decide +kernel
    obtain rfl := Option.some.inj (hsegment.symm.trans htext)
    cases ((hread .mailingEntry "9223372036854775808").1 entry).mpr hnumber
  obtain ⟨hsucceeds, -⟩ := (hremoved Rehearsal.backend Service.carrier (.ofMillis 1000) .earliest
    "a" (deletion "%2B07") {} rfl).1 ⟨7⟩ hnamed
  obtain ⟨⟨hrefused, -⟩, hlogged⟩ := (hremoved Rehearsal.backend Service.carrier (.ofMillis 1000)
    .earliest "a" (deletion "9223372036854775808") {} rfl).2 hunnamed
  refine ⟨((hread .mailing _).1 _).mpr ⟨hlowest, by decide⟩, (hread .mailing "").2.2.2 _ (by decide),
    ((hread .customer _).2.1 _).mpr ⟨.tooSmall, hproblem, by decide⟩, ⟨hnamed, ?_, by decide +kernel⟩,
    hunnamed, hrefused, hlogged⟩
  exact fun hstatus => absurd (hsucceeds.mp hstatus) (by decide +kernel)

end Api

end MailDispatch
