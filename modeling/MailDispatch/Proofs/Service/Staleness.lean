import MailDispatch.Proofs.Service.Clearing
import MailDispatch.Proofs.Time.Cutoff

/-! # What counts as stale

An entry is stale if it was inserted before the present by more than the threshold. The purge asks
for the entries before a cutoff, and that has to be a time of the calendar. What it removes is still
what the exact difference says, and a threshold that goes back beyond the calendar removes nothing.
-/
namespace MailDispatch.Service
open Store Mailing Work Time

/-- The entries that a purge may look at. -/
def Scope.Covers : Scope → Entry → Prop
  | everything, _ => True
  | mailing m, e => e.mailing = m

instance : ∀ (scope : Scope) (e : Entry), Decidable (scope.Covers e)
  | .everything, _ => .isTrue trivial
  | .mailing _, _ => inferInstanceAs (Decidable (_ = _))

variable {scope : Scope} {now : Timestamp} {threshold : Time.Span} {e : Entry} {t : Tables}

theorem Scope.selects_iff {cutoff : Timestamp} :
    scope.selects cutoff e = true ↔ scope.Covers e ∧ e.insertTime.before cutoff = true := by
  cases scope <;> simp [selects, Covers]

/-- The entry was inserted before the present less the threshold, without any bounds. -/
def Stale (scope : Scope) (now : Timestamp) (threshold : Time.Span) (e : Entry) : Prop :=
  scope.Covers e ∧ e.insertTime.Earlier (now.totalNanos - threshold.totalNanos)

instance (scope : Scope) (now : Timestamp) (threshold : Time.Span) (e : Entry) :
    Decidable (Stale scope now threshold e) :=
  inferInstanceAs (Decidable (_ ∧ _))

theorem selects_cutoff_iff (ordinary : now.nano < 1000000000) :
    scope.selects (Timestamp.cutoff now threshold) e = true ↔ Stale scope now threshold e := by
  rw [Scope.selects_iff, Timestamp.before_cutoff_iff ordinary, Stale]

theorem selects_cutoff_eq (ordinary : now.nano < 1000000000) :
    scope.selects (Timestamp.cutoff now threshold) = fun e => Stale scope now threshold e := by
  funext e
  rw [Bool.eq_iff_iff, selects_cutoff_iff ordinary, decide_eq_true_iff]

theorem not_stale_of_lt_earliest
    (h : now.totalNanos - threshold.totalNanos < Timestamp.earliest.totalNanos) :
    ¬ Stale scope now threshold e := by
  rintro ⟨-, hearlier⟩
  exact Timestamp.not_earlier_of_le (Int.le_of_lt h) hearlier

theorem Stale.mono {later : Timestamp} {shorter : Time.Span} (h : Stale scope now threshold e)
    (hnow : now.totalNanos ≤ later.totalNanos)
    (hthreshold : shorter.totalNanos ≤ threshold.totalNanos) : Stale scope later shorter e :=
  ⟨h.1, h.2.mono (by omega)⟩

/-! ## On a backend -/

variable {σ : Type} {b : Backend σ} {scene : σ → Scene} {calm : σ → Prop}

/-- A purge that selects nothing changes nothing. -/
theorem purge_of_none (hb : b.Faithful scene) (hcalm : b.Calm scene calm) {s : σ} (hs : calm s)
    {token : Token} (opened : (scene s).store.opened = some (token, t)) (sound : t.Sound)
    (operation : Option Log.Operation)
    (none : ∀ e, scope.selects (Timestamp.cutoff now threshold) e = false) :
    ((scope.purge now threshold).run b operation token s).1 = .value 0 ∧
      scene ((scope.purge now threshold).run b operation token s).2 = scene s := by
  obtain ⟨houtcome, hscene⟩ :=
    ((hcalm.run operation token (scope.purge now threshold) hs).1).run hb opened
  have hnone : scope.selects (Timestamp.cutoff now threshold) = fun _ => false := funext none
  have hempty : (t.entries.filter fun _ => false) = [] :=
    List.filter_eq_nil_iff.mpr fun _ _ => Bool.false_ne_true
  have heval : (scope.purge now threshold).eval t (scene s).outbox =
      (.value 0, t, (scene s).outbox) := by
    have hpurge := scope.eval_purge sound now threshold (scene s).outbox
    rw [hnone, Tables.purged_nothing] at hpurge
    refine Eq.trans hpurge ?_
    rw [hempty, List.length_nil]
  rw [heval] at houtcome hscene
  refine ⟨houtcome, hscene.trans ?_⟩
  rw [← opened]

/-- The cutoff is exact. For a present outside leap seconds an entry is selected if and only if it
was inserted before the present less the threshold, however far that lies outside the calendar, and
the purge comes to its end and takes just these entries. Where that is before the earliest time, or
where no difference can be so long, the purge leaves everything. An earlier present or a longer
threshold selects nothing more. -/
theorem purge_selects_by_exact_difference (hb : b.Faithful scene) (hcalm : b.Calm scene calm)
    {s : σ} (hs : calm s) {token : Token} (opened : (scene s).store.opened = some (token, t))
    (sound : t.Sound) (operation : Option Log.Operation) (scope : Scope) {now : Timestamp}
    (ordinary : now.nano < 1000000000) (threshold : Time.Span) :
    let limit : Int := now.totalNanos - threshold.totalNanos
    let cutoff := Timestamp.cutoff now threshold
    let ran := (scope.purge now threshold).run b operation token s
    (∀ e, scope.selects cutoff e = true ↔ scope.Covers e ∧ e.insertTime.Earlier limit) ∧
      (if Timestamp.earliest.totalNanos ≤ limit then
        cutoff.nano < 1000000000 ∧ cutoff.totalNanos = limit
      else cutoff = .earliest) ∧
      (ran.1 = .value (t.entries.filter fun e => Stale scope now threshold e).length ∧
        ∃ u, (scene ran.2).store.opened = some (token, u) ∧
          u.entries = t.entries.filter fun e => ¬ Stale scope now threshold e) ∧
      (limit < Timestamp.earliest.totalNanos ∨ Timestamp.fits threshold = false →
        (∀ e, scope.selects cutoff e = false) ∧ ran.1 = .value 0 ∧ scene ran.2 = scene s) ∧
      ∀ sooner : Timestamp, sooner.nano < 1000000000 → now.before sooner = false →
        ∀ longer : Time.Span, threshold.totalNanos ≤ longer.totalNanos →
          ∀ e, scope.selects (Timestamp.cutoff sooner longer) e = true →
            scope.selects cutoff e = true := by
  intro limit cutoff ran
  refine ⟨fun e => selects_cutoff_iff ordinary, ?_, ?_, ?_, ?_⟩
  · split
    · next hle => exact Timestamp.cutoff_of_le ordinary hle
    · next hlt => exact Timestamp.cutoff_eq_of_lt ordinary (Int.not_le.mp hlt)
  · obtain ⟨hvalue, hscene, -⟩ := purge_removes_what_it_selects hb hcalm hs opened sound operation
      scope now threshold
    rw [selects_cutoff_eq ordinary] at hvalue hscene
    refine ⟨hvalue, _, congrArg (fun x => x.store.opened) hscene, List.filter_congr fun e _ => ?_⟩
    exact decide_not.symm
  · intro hbeyond
    have hlt : limit < Timestamp.earliest.totalNanos :=
      hbeyond.elim id (Timestamp.lt_earliest_of_not_fits ordinary)
    have hnone : ∀ e, scope.selects cutoff e = false := by
      intro e
      rw [← Bool.not_eq_true, selects_cutoff_iff ordinary]
      exact not_stale_of_lt_earliest hlt
    exact ⟨hnone, purge_of_none hb hcalm hs opened sound operation hnone⟩
  · intro sooner hsooner hnot longer hlonger e hselected
    rw [selects_cutoff_iff hsooner] at hselected
    rw [selects_cutoff_iff ordinary]
    exact hselected.mono (Timestamp.totalNanos_le hsooner hnot) hlonger

/-- One entry was inserted in the leap second at the end of 2016 and is stale a second after the
next year has begun. The other one was inserted just at the cutoff. The longest threshold, which no
difference reaches, spares both. -/
theorem leap_second_purged_before_next_second :
    let midnight : Timestamp := ⟨1483228800, 0, by decide, by decide, by decide, by decide⟩
    let inLeap : Timestamp := ⟨1483228799, 1999999999, by decide, by decide, by decide, by decide⟩
    let now : Timestamp := { midnight with second := 1483228801, first_le := by decide
                                           le_last := by decide, leap := by decide }
    let longest : Time.Span := ⟨18446744073709551615, 999999999, by decide⟩
    let old : Entry := ⟨⟨⟨1⟩, ⟨7⟩, "Hello", "World", inLeap⟩, ⟨1⟩⟩
    let new : Entry := { old with id := ⟨2⟩, insertTime := midnight }
    let t : Tables := ⟨[⟨⟨1⟩, "anna@example.com"⟩], [old, new], 1, 2⟩
    let r : Rehearsal := { store := ⟨.empty, some (0, t), 1⟩ }
    let ran := (Scope.everything.purge now (.ofSeconds 1)).run Rehearsal.backend none 0 r
    let spared := (Scope.everything.purge now longest).run Rehearsal.backend none 0 r
    r.Undisturbed ∧ r.store.opened = some (0, t) ∧ t.Sound ∧ now.nano < 1000000000 ∧
      ran.1 = .value 1 ∧ ran.2.store.opened = some (0, { t with entries := [new] }) ∧
      Timestamp.fits longest = false ∧ spared.1 = .value 0 ∧
      spared.2.store.opened = some (0, t) := by
  intro midnight inLeap now longest old new t r ran spared
  have hcalm : r.Undisturbed := ⟨rfl, rfl, fun _ _ _ _ => rfl⟩
  have hopened : (Rehearsal.scene r).store.opened = some (0, t) := rfl
  have hsound : t.Sound := ⟨by decide, by decide, by decide, by decide, by decide, by decide⟩
  have hordinary : now.nano < 1000000000 := by decide
  have hlong : Timestamp.fits longest = false := by decide
  have hcount : (t.entries.filter fun e => Stale .everything now (.ofSeconds 1) e).length = 1 := by
    decide +kernel
  have hleft : ran.2.store.opened = some (0, { t with entries := [new] }) := by decide +kernel
  obtain ⟨-, -, ⟨hvalue, -⟩, -⟩ := purge_selects_by_exact_difference Rehearsal.faithful
    Rehearsal.calm hcalm hopened hsound none .everything hordinary (.ofSeconds 1)
  obtain ⟨-, -, -, hbeyond, -⟩ := purge_selects_by_exact_difference Rehearsal.faithful
    Rehearsal.calm hcalm hopened hsound none .everything hordinary longest
  obtain ⟨-, hnone, hspared⟩ := hbeyond (.inr hlong)
  refine ⟨hcalm, hopened, hsound, hordinary, hvalue.trans (congrArg _ hcount), hleft, hlong, hnone,
    ?_⟩
  rw [← Rehearsal.store_scene spared.2, hspared]
  exact hopened

end MailDispatch.Service
