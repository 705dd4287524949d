import Mathlib.Algebra.Ring.Nat
import Mathlib.Data.List.Basic
import MailDispatch.Proofs.Service.Clearing

/-! # Purging piece by piece

Stale entries can be removed all at once, or mailing by mailing. On the way a customer who has only
stale entries left is kept until the last of them goes, so what is stored in between differs. In the
end it is the same: a customer stays if and only if an entry of theirs stays or none was removed, and
that does not hang on how the removed entries were divided.
-/
namespace MailDispatch
open Store Mailing Work Time

namespace Store.Tables

variable {t : Tables} {p q : Entry → Bool}

theorem Sound.purged (h : t.Sound) (stale : Entry → Bool) : (t.purged stale).Sound where
  emails := h.emails.filter _
  customers_ascend := h.customers_ascend.filter _
  customer_given c hc := h.customer_given c (List.mem_filter.mp hc).1
  entries_ascend := h.entries_ascend.filter _
  entry_given e he := h.entry_given e (List.mem_filter.mp he).1
  owned := by
    intro e he
    obtain ⟨he, hkept⟩ := List.mem_filter.mp he
    obtain ⟨c, hc, hid⟩ := h.owned e he
    have hused : (t.entries.any fun e => e.customer == c.id && !stale e) = true :=
      List.any_eq_true.mpr ⟨e, he, by simp [hid, hkept]⟩
    exact ⟨c, List.mem_filter.mpr ⟨hc, by simp [hused]⟩, hid⟩

theorem purged_congr (h : ∀ e ∈ t.entries, p e = q e) : t.purged p = t.purged q := by
  have hkept : (t.entries.filter fun e => !p e) = t.entries.filter fun e => !q e :=
    List.filter_congr fun e he => by rw [h e he]
  rw [Service.purged_eq, Service.purged_eq, hkept, List.filter_congr h]

/-- Two purges remove together what either selects. -/
theorem purged_purged (t : Tables) (p q : Entry → Bool) :
    (t.purged p).purged q = t.purged fun e => p e || q e := by
  simp only [purged, List.filter_filter, List.any_filter, Tables.mk.injEq, and_true]
  refine ⟨List.filter_congr fun c _ => ?_, List.filter_congr fun e _ => ?_⟩
  · rw [Bool.eq_iff_iff]
    simp only [Bool.and_eq_true, Bool.or_eq_true, Bool.not_eq_true', List.any_eq_true,
      Bool.or_eq_false_iff, List.any_eq_false, beq_iff_eq, not_and]
    by_cases hstays : ∃ e ∈ t.entries, e.customer = c.id ∧ p e = false ∧ q e = false
    · obtain ⟨e, he, hid, hp, hq⟩ := hstays
      exact iff_of_true ⟨.inl ⟨e, he, hp, hid, hq⟩, .inl ⟨e, he, hid, hp⟩⟩ (.inl ⟨e, he, hid, hp, hq⟩)
    · -- What the first purge leaves of the customer's entries the second takes, so the customer
      -- stays only if there was none.
      grind
  · rw [Bool.not_or, Bool.and_comm]

/-- A purge leaves nothing for another one of its kind. -/
theorem purged_again (t : Tables) (p : Entry → Bool) :
    (t.purged p).purged p = t.purged p ∧ (t.purged p).entries.filter p = [] := by
  refine ⟨by simp only [purged_purged, Bool.or_self], List.filter_eq_nil_iff.mpr ?_⟩
  intro e he
  simpa using (List.mem_filter.mp he).2

/-! ## A row of purges -/

/-- How many entries each of several purges removes. -/
def removals : List (Entry → Bool) → Tables → List Nat
  | [], _ => []
  | p :: ps, t => (t.entries.filter p).length :: removals ps (t.purged p)

theorem foldl_purged (ps : List (Entry → Bool)) (t : Tables) :
    ps.foldl purged t = t.purged fun e => ps.any fun p => p e := by
  induction ps generalizing t with
  | nil => exact t.purged_nothing.symm
  | cons p ps ih => simp only [List.foldl_cons, ih, purged_purged, List.any_cons]

theorem sum_removals (ps : List (Entry → Bool)) (t : Tables) :
    (removals ps t).sum = (t.entries.filter fun e => ps.any fun p => p e).length := by
  induction ps generalizing t with
  | nil => simp [removals]
  | cons p ps ih =>
    -- Of what any of them selects, the first takes its part and the others find the rest.
    have hsplit := (t.entries.filter fun e => (p :: ps).any fun p => p e).length_eq_length_filter_add p
    have hfirst : ((t.entries.filter fun e => (p :: ps).any fun p => p e).filter p) =
        t.entries.filter p := by
      rw [List.filter_filter]
      refine List.filter_congr fun e _ => ?_
      cases hp : p e <;> simp [hp]
    have hrest : ((t.entries.filter fun e => (p :: ps).any fun p => p e).filter fun e => !p e) =
        (t.purged p).entries.filter fun e => ps.any fun p => p e := by
      rw [purged, List.filter_filter, List.filter_filter]
      refine List.filter_congr fun e _ => ?_
      cases hp : p e <;> simp [hp]
    rw [hsplit, hfirst, hrest, removals, List.sum_cons, ih]

end Store.Tables

namespace Service
open Store.Tables

/-- Purges one scope after the other. Gives the number of entries that each purge removed. -/
def purgeInTurn (now : Timestamp) (threshold : Time.Span) : List Scope → Work Failure (List Nat)
  | [] => done []
  | scope :: scopes => do
    let n ← scope.purge now threshold
    let ns ← purgeInTurn now threshold scopes
    return n :: ns

variable {t : Tables}

theorem eval_purgeInTurn (h : t.Sound) (now : Timestamp) (threshold : Time.Span)
    (scopes : List Scope) (out : List Mail) :
    let selections := scopes.map (Scope.selects (Timestamp.cutoff now threshold))
    (purgeInTurn now threshold scopes).eval t out =
      (.value (removals selections t), selections.foldl purged t, out) := by
  induction scopes generalizing t with
  | nil => rfl
  | cons scope scopes ih =>
    have hfirst := scope.eval_purge h now threshold out
    have hrest := ih (h.purged (scope.selects (Timestamp.cutoff now threshold)))
    refine (eval_bind _ _ _ _).trans ?_
    rw [hfirst]
    refine (eval_bind _ _ _ _).trans ?_
    rw [hrest]
    rfl

/-- Scopes that reach every stale entry select the same as the scope of everything. -/
theorem any_selects_of_covered {cutoff : Timestamp} {ms : List MailingId}
    (covered : ∀ e ∈ t.entries, e.insertTime.before cutoff = true → e.mailing ∈ ms) :
    ∀ e ∈ t.entries, ((ms.map Scope.mailing).map (Scope.selects cutoff)).any (fun p => p e) =
      Scope.everything.selects cutoff e := by
  intro e he
  simp only [Scope.selects, List.map_map, List.any_map, Function.comp_def]
  cases hstale : e.insertTime.before cutoff with
  | false => simp
  | true => simpa using covered e he hstale

/-! ## On a backend -/

variable {σ : Type} {b : Backend σ} {scene : σ → Scene} {calm : σ → Prop}

/-- Purges one scope after the other, each in a transaction of its own. -/
def purgeApart (b : Backend σ) (now : Timestamp) (threshold : Time.Span) :
    List (Option Log.Operation × Scope) → σ → List (Ended Failure Nat) × σ
  | [], s => ([], s)
  | (operation, scope) :: rest, s =>
    let (answer, s) := Transaction.within b operation (scope.purge now threshold) s
    let (answers, s) := purgeApart b now threshold rest s
    (answer :: answers, s)

theorem purgeApart_of_calm (hb : b.Faithful scene) (hcalm : b.Calm scene calm) (now : Timestamp)
    (threshold : Time.Span) (requests : List (Option Log.Operation × Scope)) {s : σ} (hs : calm s)
    (closed : (scene s).store.opened = none) (sound : (scene s).store.committed.Sound) :
    let selections := (requests.map Prod.snd).map (Scope.selects (Timestamp.cutoff now threshold))
    let ran := purgeApart b now threshold requests s
    ran.1 = (removals selections (scene s).store.committed).map .value ∧ calm ran.2 ∧
      (scene ran.2).store.opened = none ∧
      (scene ran.2).store.committed = selections.foldl purged (scene s).store.committed := by
  induction requests generalizing s with
  | nil => exact ⟨rfl, hs, closed, rfl⟩
  | cons request rest ih =>
    obtain ⟨operation, scope⟩ := request
    obtain ⟨hanswer, hs', hscene⟩ := hcalm.within_of_eval hb operation hs closed
      (scope.eval_purge sound now threshold (scene s).outbox)
    have hrest := ih hs' (by rw [hscene]) (by rw [hscene]; exact sound.purged _)
    rw [hscene] at hrest
    obtain ⟨hanswers, hcalm', hclosed, hcommitted⟩ := hrest
    exact ⟨congrArg₂ List.cons hanswer hanswers, hcalm', hclosed, hcommitted⟩

/-- After a purge another one at the same time finds nothing. -/
theorem purge_of_purged (hb : b.Faithful scene) (hcalm : b.Calm scene calm) {s : σ} (hs : calm s)
    (closed : (scene s).store.opened = none) (operation : Option Log.Operation) (now : Timestamp)
    (threshold : Time.Span) (sound : t.Sound)
    (cleared : (scene s).store.committed =
      t.purged fun e => e.insertTime.before (Timestamp.cutoff now threshold)) :
    let again := Transaction.within b operation (purge now threshold) s
    again.1 = .value 0 ∧ (scene again.2).store.committed =
      t.purged fun e => e.insertTime.before (Timestamp.cutoff now threshold) := by
  intro again
  have hsound : (scene s).store.committed.Sound := cleared ▸ sound.purged _
  obtain ⟨hvalue, -, hscene⟩ :=
    hcalm.within_of_eval hb operation hs closed (eval_purge hsound now threshold)
  obtain ⟨hsame, hnone⟩ :=
    t.purged_again fun e => e.insertTime.before (Timestamp.cutoff now threshold)
  rw [cleared, hnone] at hvalue
  rw [cleared, hsame] at hscene
  exact ⟨hvalue, congrArg (fun x => x.store.committed) hscene⟩

/-- Purging mailings one after the other, in any order and some of them again, comes to purging
everything at once, if every mailing with a stale entry is among them: the same rows stay, in the same
order, and as many entries are removed. Then nothing is left for another purge at that time. -/
theorem purging_mailings_comes_to_purging_everything (hb : b.Faithful scene)
    (hcalm : b.Calm scene calm) {s : σ} (hs : calm s) (closed : (scene s).store.opened = none)
    (sound : (scene s).store.committed.Sound) (operation : Option Log.Operation) (now : Timestamp)
    (threshold : Time.Span) {requests : List (Option Log.Operation × MailingId)}
    (covered : ∀ e ∈ (scene s).store.committed.entries,
      e.insertTime.before (Timestamp.cutoff now threshold) = true →
        e.mailing ∈ requests.map Prod.snd) :
    let left := (scene s).store.committed.purged fun e =>
      e.insertTime.before (Timestamp.cutoff now threshold)
    let all := Transaction.within b operation (purge now threshold) s
    let together := Transaction.within b operation
      (purgeInTurn now threshold ((requests.map Prod.snd).map .mailing)) s
    let apart := purgeApart b now threshold (requests.map (Prod.map id .mailing)) s
    ∃ counts : List Nat,
      all.1 = .value counts.sum ∧ together.1 = .value counts ∧ apart.1 = counts.map .value ∧
      ∀ after ∈ [all.2, together.2, apart.2], (scene after).store.committed = left ∧
        let again := Transaction.within b operation (purge now threshold) after
        again.1 = .value 0 ∧ (scene again.2).store.committed = left := by
  intro left all together apart
  have hcovered := any_selects_of_covered covered
  have hscopes : (requests.map (Prod.map id Scope.mailing)).map Prod.snd =
      (requests.map Prod.snd).map Scope.mailing := by simp [Function.comp_def]
  obtain ⟨hall, hall', hallScene⟩ := hcalm.within_of_eval hb operation hs closed
    (Scope.everything.eval_purge sound now threshold (scene s).outbox)
  obtain ⟨htogether, htogether', htogetherScene⟩ := hcalm.within_of_eval hb operation hs closed
    (eval_purgeInTurn sound now threshold ((requests.map Prod.snd).map .mailing) (scene s).outbox)
  obtain ⟨hapart, hapart', hclosed, hcommitted⟩ := purgeApart_of_calm hb hcalm now threshold
    (requests.map (Prod.map id .mailing)) hs closed sound
  rw [hscopes] at hapart hcommitted
  rw [foldl_purged, purged_congr hcovered] at htogetherScene hcommitted
  refine ⟨_, ?_, htogether, hapart, ?_⟩
  · rw [sum_removals, List.filter_congr hcovered]
    exact hall
  · have hafter : ∀ after, calm after → (scene after).store.opened = none →
        (scene after).store.committed = left → (scene after).store.committed = left ∧
          let again := Transaction.within b operation (purge now threshold) after
          again.1 = .value 0 ∧ (scene again.2).store.committed = left := by
      intro after hafter hclosed hleft
      exact ⟨hleft, purge_of_purged hb hcalm hafter hclosed operation now threshold sound hleft⟩
    refine List.forall_mem_cons.mpr ⟨hafter _ hall' ?_ ?_, List.forall_mem_cons.mpr
      ⟨hafter _ htogether' ?_ ?_, List.forall_mem_singleton.mpr ?_⟩⟩
    · exact congrArg (fun x => x.store.opened) hallScene
    · exact congrArg (fun x => x.store.committed) hallScene
    · exact congrArg (fun x => x.store.opened) htogetherScene
    · exact congrArg (fun x => x.store.committed) htogetherScene
    · exact hafter _ hapart' hclosed hcommitted

/-- The first customer has stale entries in both mailings, and goes with the last of them only. -/
theorem stale_mailings_purged_backwards :
    let first : Entry := ⟨⟨⟨1⟩, ⟨7⟩, "Hello", "World", .earliest⟩, ⟨1⟩⟩
    let second : Entry := { first with id := ⟨2⟩, mailing := ⟨8⟩ }
    let other : Entry := { first with id := ⟨3⟩, customer := ⟨2⟩ }
    let fresh : Entry := { other with id := ⟨4⟩, insertTime := .latest }
    let anna : Customer := ⟨⟨1⟩, "anna@example.com"⟩
    let ben : Customer := ⟨⟨2⟩, "ben@example.com"⟩
    let t : Tables := ⟨[anna, ben], [first, second, other, fresh], 2, 4⟩
    let r : Rehearsal := { store := ⟨t, none, 0⟩ }
    let requests : List (Option Log.Operation × MailingId) := [⟨8⟩, ⟨7⟩, ⟨8⟩].map (Prod.mk none)
    let all := Transaction.within Rehearsal.backend none (purge .latest (.ofSeconds 1)) r
    let apart := purgeApart Rehearsal.backend .latest (.ofSeconds 1)
      (requests.map (Prod.map id .mailing)) r
    let onlyFirst := purgeApart Rehearsal.backend .latest (.ofSeconds 1) [(none, .mailing ⟨8⟩)] r
    r.Undisturbed ∧ r.store.opened = none ∧ t.Sound ∧
      (∀ e ∈ t.entries, e.insertTime.before (Timestamp.cutoff .latest (.ofSeconds 1)) = true →
        e.mailing ∈ requests.map Prod.snd) ∧
      onlyFirst.2.store.committed = ⟨[anna, ben], [first, other, fresh], 2, 4⟩ ∧
      apart.1 = [.value 1, .value 2, .value 0] ∧ all.1 = .value 3 ∧
      apart.2.store.committed = ⟨[ben], [fresh], 2, 4⟩ ∧
      apart.2.store.committed = all.2.store.committed := by
  intro first second other fresh anna ben t r requests all apart onlyFirst
  have hcalm : r.Undisturbed := ⟨rfl, rfl, fun _ _ _ _ => rfl⟩
  have hsound : t.Sound := ⟨by decide, by decide, by decide, by decide, by decide, by decide⟩
  have hcovered : ∀ e ∈ t.entries,
      e.insertTime.before (Timestamp.cutoff .latest (.ofSeconds 1)) = true →
        e.mailing ∈ requests.map Prod.snd := by decide +kernel
  have hcomputed : onlyFirst.2.store.committed = ⟨[anna, ben], [first, other, fresh], 2, 4⟩ ∧
      apart.1 = [.value 1, .value 2, .value 0] ∧ all.1 = .value 3 ∧
      apart.2.store.committed = ⟨[ben], [fresh], 2, 4⟩ := by decide +kernel
  obtain ⟨counts, -, -, -, hafter⟩ := purging_mailings_comes_to_purging_everything
    Rehearsal.faithful Rehearsal.calm hcalm rfl hsound none .latest (.ofSeconds 1) hcovered
  obtain ⟨honly, hanswers, hall, hleft⟩ := hcomputed
  refine ⟨hcalm, rfl, hsound, hcovered, honly, hanswers, hall, hleft, ?_⟩
  rw [← Rehearsal.store_scene apart.2, ← Rehearsal.store_scene all.2]
  exact (hafter apart.2 (by simp [apart])).1.trans (hafter all.2 (by simp [all])).1.symm

end Service
end MailDispatch
