import MailDispatch.Proofs.Service.Purging
import MailDispatch.Proofs.Work.Calls

/-! # What a purge asks for

A purge that nothing disturbs makes its calls in a fixed order: it looks for what is stale, takes
these entries out in the order of the table, and then looks at each of their customers once. All
entries are out before the first customer is looked at, so what a look finds does not hang on the
customers before.
-/
namespace MailDispatch
open Store Mailing Work Time

namespace Service
open Store.Tables

/-- What a purge is about: all entries, or those of one mailing. -/
inductive Scope where
  | everything
  | mailing (m : MailingId)

namespace Scope

def purge : Scope → Timestamp → Time.Span → Work Failure Nat
  | everything => Service.purge
  | mailing m => Service.purgeMailing m

/-- The call that looks for the entries to remove. -/
def look (cutoff : Timestamp) : Scope → Call
  | everything => .entriesBefore cutoff
  | mailing m => .entriesOfMailingBefore m cutoff

def selects (cutoff : Timestamp) : Scope → Entry → Bool
  | everything, e => e.insertTime.before cutoff
  | mailing m, e => e.mailing == m && e.insertTime.before cutoff

end Scope

/-! ## Loops -/

variable {α : Type} {t : Tables} {out : List Mail}

theorem calls_asking (step : String) (c : Call) (t : Tables) : (asking step c).calls t = [c] := by
  rw [asking, calls_mapError, calls_ask]

/-- The calls of a loop are those of its steps, if these do not depend on the steps before. -/
theorem calls_each (needs : List α → Tables → Prop) (asked : α → List Call)
    {f : α → Work Failure Unit} {g : Tables → α → Tables}
    (step : ∀ a as t, needs (a :: as) t →
      (f a).eval t [] = (.value (), g t a, []) ∧ needs as (g t a))
    (hasked : ∀ a as t, needs (a :: as) t → (f a).calls t = asked a)
    (as : List α) (t : Tables) (h : needs as t) :
    (each f as).calls t = as.flatMap asked := by
  induction as generalizing t with
  | nil => rfl
  | cons a as ih =>
    obtain ⟨hfirst, hrest⟩ := step a as t h
    rw [each, calls_bind hfirst, hasked a as t h, ih (g t a) hrest, List.flatMap_cons]

theorem Removable.calls_each {es : List Entry} (h : Removable es t) :
    (each Service.removeStale es).calls t = es.map fun e => .deleteEntry e.id := by
  have hcalls := Service.calls_each Removable (fun e => [.deleteEntry e.id])
    (fun _ _ _ => Removable.removeStale) (fun e _ t _ => calls_asking _ _ t) es t h
  rw [hcalls, List.map_eq_flatMap]

/-- The look at a customer, and the deletion if the customer has no entry. -/
def review (t : Tables) (id : CustomerId) : List Call :=
  .entriesOfCustomer id ::
    if t.entries.any fun e => e.customer == id then [] else [.deleteCustomer id]

theorem calls_removeIfUnused (id : CustomerId) (t : Tables) :
    (removeIfUnused id).calls t = review t id := by
  have hlook : (asking ("error listing mailing entries of customer " ++ id.text)
      (.entriesOfCustomer id)).eval t [] =
        (.value (t.entries.filter fun e => e.customer == id), t, []) := eval_asking _ _ _ _
  refine (calls_bind hlook).trans ?_
  rw [calls_asking, review]
  cases hfound : t.entries.filter fun e => e.customer == id with
  | nil =>
    have hunused : (t.entries.any fun e => e.customer == id) = false :=
      List.any_eq_false.mpr (List.filter_eq_nil_iff.mp hfound)
    rw [hunused]
    exact congrArg (_ :: ·) (calls_asking _ (.deleteCustomer id) t)
  | cons e es =>
    have hused : (t.entries.any fun e => e.customer == id) = true := by
      obtain ⟨hmem, hid⟩ := List.mem_filter.mp (hfound ▸ List.mem_cons_self)
      exact List.any_eq_true.mpr ⟨e, hmem, hid⟩
    rw [hused]
    rfl

theorem Reviewable.calls_each {ids : List CustomerId} (h : Reviewable ids t) :
    (each Service.removeIfUnused ids).calls t = ids.flatMap (review t) := by
  -- Customers go, but the entries that a look finds stay the same.
  refine Service.calls_each (fun ids u => Reviewable ids u ∧ u.entries = t.entries) (review t)
    (g := fun u id => u.withoutUnused [id]) ?_ ?_ ids t ⟨h, rfl⟩
  · rintro id ids u ⟨hids, hentries⟩
    exact hids.removeIfUnused.imp_right fun hrest => ⟨hrest, hentries⟩
  · rintro id ids u ⟨-, hentries⟩
    rw [calls_removeIfUnused, review, review, hentries]

theorem Removable.calls_removeAll {es : List Entry} (h : Removable es t) :
    (removeAll es).calls t =
      (es.map fun e => .deleteEntry e.id) ++
        (customersOf es).flatMap (review (t.without es)) := by
  cases es with
  | nil => rfl
  | cons e es =>
    have hreviewed := h.reviewable.calls_each
    obtain ⟨hunused, -⟩ :=
      eval_each [] (fun _ _ _ => Reviewable.removeIfUnused) _ _ h.reviewable
    refine (calls_bind (h.removeEach []).1).trans ?_
    rw [h.calls_each]
    refine congrArg (_ ++ ·) ((calls_bind hunused).trans ?_)
    rw [hreviewed]
    exact List.append_nil _

/-! ## The purge -/

theorem Scope.eval_purge (h : t.Sound) (scope : Scope) (now : Timestamp) (threshold : Time.Span)
    (out : List Mail) :
    let selected := t.entries.filter (scope.selects (Timestamp.cutoff now threshold))
    (scope.purge now threshold).eval t out =
      (.value selected.length, t.purged (scope.selects (Timestamp.cutoff now threshold)), out) := by
  intro selected
  have hall : (removeAll selected).eval t out = (.value selected.length,
      t.purged (scope.selects (Timestamp.cutoff now threshold)), out) := by
    rw [← without_withoutUnused h]
    exact eval_removeAll (.filter h _)
  cases scope <;>
  · refine (eval_bind _ _ _ _).trans ?_
    rw [eval_asking]
    exact hall

theorem Scope.calls_purge (h : t.Sound) (scope : Scope) (now : Timestamp)
    (threshold : Time.Span) :
    let selected := t.entries.filter (scope.selects (Timestamp.cutoff now threshold))
    (scope.purge now threshold).calls t =
      scope.look (Timestamp.cutoff now threshold) ::
        ((selected.map fun e => .deleteEntry e.id) ++
          (customersOf selected).flatMap (review (t.without selected))) := by
  intro selected
  have hselected : Removable selected t := .filter h _
  have hall := hselected.calls_removeAll
  cases scope <;>
  · refine (calls_bind (eval_asking _ _ _ [])).trans ?_
    rw [calls_asking]
    exact congrArg (_ :: ·) hall

theorem purged_eq (t : Tables) (stale : Entry → Bool) :
    t.purged stale =
      { t with
        customers := t.customers.filter fun c =>
          ((t.entries.filter fun e => !stale e).any fun e => e.customer == c.id) ||
            !(t.entries.filter stale).any fun e => e.customer == c.id
        entries := t.entries.filter fun e => !stale e } := by
  simp only [purged, List.any_filter, Bool.and_comm]

/-! ## On a backend -/

variable {σ : Type} {b : Backend σ} {scene : σ → Scene} {calm : σ → Prop}

/-- On a calm backend a purge removes the entries that it selects, and their customers unless they
have others, and says how many entries that were. It looks once for the entries, removes them one by
one in the order of the table, and then looks once at each of their customers, in ascending order. -/
theorem purge_removes_what_it_selects (hb : b.Faithful scene) (hcalm : b.Calm scene calm) {s : σ}
    (hs : calm s) {token : Token} (opened : (scene s).store.opened = some (token, t))
    (sound : t.Sound) (operation : Option Log.Operation) (scope : Scope) (now : Timestamp)
    (threshold : Time.Span) :
    let cutoff := Timestamp.cutoff now threshold
    let selected := t.entries.filter (scope.selects cutoff)
    let left := t.entries.filter fun e => !scope.selects cutoff e
    let kept := t.customers.filter fun c =>
      (left.any fun e => e.customer == c.id) || !selected.any fun e => e.customer == c.id
    let ran := (scope.purge now threshold).run b operation token s
    ran.1 = .value selected.length ∧
      scene ran.2 = { scene s with
        store.opened := some (token, { t with customers := kept, entries := left }) } ∧
      ∃ (asked : List Query) (owners : List CustomerId),
        (scope.purge now threshold).run b.traced operation token (s, []) =
          (ran.1, ran.2, asked) ∧
        (owners.Pairwise fun x y => x.val < y.val) ∧
        (∀ id, id ∈ owners ↔ ∃ e ∈ selected, e.customer = id) ∧
        asked.filterMap Query.call? = scope.look cutoff ::
          ((selected.map fun e => .deleteEntry e.id) ++ owners.flatMap fun id =>
            .entriesOfCustomer id ::
              if left.any fun e => e.customer == id then [] else [.deleteCustomer id]) := by
  intro cutoff selected left kept ran
  have hserved := (hcalm.run operation token (scope.purge now threshold) hs).1
  obtain ⟨houtcome, hscene⟩ := hserved.run hb opened
  obtain ⟨asked, hasked, hcalls⟩ := hserved.exists_asked hb opened []
  have heval := scope.eval_purge sound now threshold (scene s).outbox
  rw [purged_eq] at heval
  rw [heval] at houtcome hscene
  rw [scope.calls_purge sound now threshold, sound.without_filter] at hcalls
  refine ⟨houtcome, hscene, asked, customersOf selected, hasked, ascending_customersOf selected, ?_,
    hcalls⟩
  intro id
  exact mem_customersOf

/-- Three entries of a mailing are stale. One of their two customers has an entry in another mailing,
and a third customer never had one. -/
theorem purge_of_mailing_keeps_other_customers :
    let stale : Entry := ⟨⟨⟨3⟩, ⟨7⟩, "Hello", "World", .earliest⟩, ⟨1⟩⟩
    let other : Entry := { stale with id := ⟨2⟩, customer := ⟨1⟩ }
    let elsewhere : Entry := { stale with id := ⟨3⟩, customer := ⟨1⟩, mailing := ⟨8⟩ }
    let again : Entry := { stale with id := ⟨4⟩, title := "Again" }
    let fresh : Entry := { elsewhere with id := ⟨5⟩, mailing := ⟨7⟩, insertTime := .latest }
    let t : Tables := ⟨[⟨⟨1⟩, "a@b.c"⟩, ⟨⟨2⟩, "d@e.f"⟩, ⟨⟨3⟩, "g@h.i"⟩],
      [stale, other, elsewhere, again, fresh], 3, 5⟩
    let r : Rehearsal := { store := ⟨.empty, some (0, t), 1⟩ }
    let ran := ((Scope.mailing ⟨7⟩).purge .latest (.ofSeconds 1)).run Rehearsal.backend none 0 r
    r.Undisturbed ∧ r.store.opened = some (0, t) ∧ t.Sound ∧ ran.1 = .value 3 ∧
      ran.2.store.opened =
        some (0, ⟨[⟨⟨1⟩, "a@b.c"⟩, ⟨⟨2⟩, "d@e.f"⟩], [elsewhere, fresh], 3, 5⟩) ∧
      ran.2.calls = [.entriesOfMailingBefore ⟨7⟩ (Timestamp.cutoff .latest (.ofSeconds 1)),
        .deleteEntry ⟨1⟩, .deleteEntry ⟨2⟩, .deleteEntry ⟨4⟩, .entriesOfCustomer ⟨1⟩,
        .entriesOfCustomer ⟨3⟩, .deleteCustomer ⟨3⟩] := by
  intro stale other elsewhere again fresh t r ran
  have hcalm : r.Undisturbed := ⟨rfl, rfl, fun _ _ _ _ => rfl⟩
  have hopened : (Rehearsal.scene r).store.opened = some (0, t) := rfl
  have hsound : t.Sound := ⟨by decide, by decide, by decide, by decide, by decide, by decide⟩
  obtain ⟨hvalue, hscene, -⟩ := purge_removes_what_it_selects Rehearsal.faithful
    Rehearsal.calm hcalm hopened hsound none (.mailing ⟨7⟩) .latest (.ofSeconds 1)
  refine ⟨hcalm, hopened, hsound, hvalue, congrArg (fun x => x.store.opened) hscene, ?_⟩
  decide +kernel

end Service
end MailDispatch
