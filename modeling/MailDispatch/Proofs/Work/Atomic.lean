import MailDispatch.Proofs.Work.Ensures

/-! # Work in a transaction is atomic

Work in a transaction works on a copy of the committed tables. The copy replaces them
if the work ends with a value and the commit succeeds; nothing is left of it
otherwise. Either way no transaction stays open.
-/
namespace MailDispatch.Transaction
open Store Work Mailing

variable {σ ε α : Type}

/-- The work ran on a copy of the committed tables and made it what it is at the end. -/
structure Ran (b : Backend σ) (scene : σ → Scene) (operation : Option Log.Operation)
    (w : Work ε α) (s : σ) (o : Outcome ε α) (t : Tables) (s' : σ) : Prop where
  ran : ∃ token opened, b.begin s = (.ok token, opened) ∧
    (scene opened).store.view? token = some (scene s).store.committed ∧
    w.run b operation token opened = (o, s') ∧ (scene s').store.view? token = some t
  ensured : ∀ Q : Post ε α, w.Ensures Q (scene s).store.committed (scene s).outbox →
    Q o t (scene s').outbox

/-- All that can become of work in a transaction, and what it leaves behind. -/
inductive Course (b : Backend σ) (scene : σ → Scene) (operation : Option Log.Operation)
    (w : Work ε α) (s : σ) : Ended ε α → Scene → Prop where
  | notBegun (p : Problem) : Course b scene operation w s (.notBegun p) (scene s)
  | committed {a : α} {t : Tables} {s' : σ} (ran : Ran b scene operation w s (.value a) t s') :
    Course b scene operation w s (.value a)
      ⟨⟨t, none, (scene s).store.next + 1⟩, (scene s').outbox⟩
  | notCommitted (p : Problem) {a : α} {t : Tables} {s' : σ}
    (ran : Ran b scene operation w s (.value a) t s') :
    Course b scene operation w s (.notCommitted p)
      ⟨⟨(scene s).store.committed, none, (scene s).store.next + 1⟩, (scene s').outbox⟩
  | failed {e : ε} {t : Tables} {s' : σ} (ran : Ran b scene operation w s (.error e) t s') :
    Course b scene operation w s (.failed e)
      ⟨⟨(scene s).store.committed, none, (scene s).store.next + 1⟩, (scene s').outbox⟩
  | crashed {x : Crash} {t : Tables} {s' : σ} (ran : Ran b scene operation w s (.crash x) t s') :
    Course b scene operation w s (.crashed x)
      ⟨⟨(scene s).store.committed, none, (scene s).store.next + 1⟩, (scene s').outbox⟩

variable {b : Backend σ} {scene : σ → Scene}

/-- A rollback gives the transaction up, whatever it reports. -/
theorem scene_rollback (hb : b.Faithful scene) (operation : Option Log.Operation) {token : Token}
    {t : Tables} {s : σ} (ho : (scene s).store.opened = some (token, t)) :
    scene (rollback b operation token s) =
      { scene s with store := { (scene s).store with opened := none } } := by
  have hr := hb.rollback token s
  rw [Locked.abandon_of_opened ho] at hr
  unfold rollback
  split
  · next s' hs => rwa [hs] at hr
  · next p s' hs =>
    rw [hb.log]
    rwa [hs] at hr

/-- Once the transaction is open the work runs in it, and it is open still at the end. -/
theorem exists_ran (hb : b.Faithful scene) (operation : Option Log.Operation) (w : Work ε α)
    {s s₁ : σ} {token : Token} {l : Locked} (hl : (scene s).store.begin? = some (token, l))
    (hbegin : b.begin s = (.ok token, s₁)) (hs₁ : scene s₁ = { scene s with store := l }) :
    ∃ t, Ran b scene operation w s (w.run b operation token s₁).1 t
        (w.run b operation token s₁).2 ∧
      (scene (w.run b operation token s₁).2).store =
        ⟨(scene s).store.committed, some (token, t), (scene s).store.next + 1⟩ := by
  obtain ⟨-, hview, hcommitted, -, hnext⟩ := Locked.begin?_eq_some hl
  have hstore : (scene s₁).store = l := by rw [hs₁]
  have hout : (scene s₁).outbox = (scene s).outbox := by rw [hs₁]
  rw [← hstore] at hview hcommitted hnext
  have hopened := Locked.view?_eq_some_iff.mp hview
  have htrue : w.Ensures (fun _ _ _ => True) (scene s).store.committed (scene s₁).outbox :=
    ensures_of_forall (fun _ _ _ => trivial) w _ _
  obtain ⟨t, ht, -⟩ := htrue.run hb operation hopened
  refine ⟨t, ⟨⟨token, s₁, hbegin, hview, rfl, ?_⟩, ?_⟩, ?_⟩
  · rw [ht]
    exact Locked.view?_eq_some_iff.mpr rfl
  · intro Q hQ
    -- There is one copy only, so what the work ensures is about the same tables.
    rw [← hout] at hQ
    obtain ⟨u, hu, hQu⟩ := hQ.run hb operation hopened
    rw [ht] at hu
    obtain rfl : t = u := by simpa using hu
    exact hQu
  · rw [ht, ← hcommitted, ← hnext]

/-- The end of the transaction is one of those, whatever it reports. -/
theorem course_finish (hb : b.Faithful scene) {operation : Option Log.Operation} {w : Work ε α}
    {s s' : σ} {token : Token} {o : Outcome ε α} {t : Tables}
    (hran : Ran b scene operation w s o t s')
    (hstore : (scene s').store =
      ⟨(scene s).store.committed, some (token, t), (scene s).store.next + 1⟩) :
    Course b scene operation w s (finish b operation token (o, s')).1
      (scene (finish b operation token (o, s')).2) := by
  have hopened : (scene s').store.opened = some (token, t) := by rw [hstore]
  have hgiven : { (scene s').store with opened := none } =
      (⟨(scene s).store.committed, none, (scene s).store.next + 1⟩ : Locked) := by rw [hstore]
  cases o with
  | value a =>
    rcases hb.commit token s' with ⟨p, s'', hcommit, hs⟩ | ⟨s'', hcommit, hs⟩
    · rw [Locked.abandon_of_opened hopened, hgiven] at hs
      simp only [finish, hb.crash, hcommit, hs]
      exact .notCommitted p hran
    · rw [Locked.commit_of_view? (Locked.view?_eq_some_iff.mpr hopened)] at hcommit hs
      rw [hstore] at hs
      simp only [finish, hb.crash, hcommit, hs]
      exact .committed hran
  | error e =>
    simp only [finish, giveUp, hb.crash, scene_rollback hb operation hopened, hgiven]
    exact .failed hran
  | crash x =>
    have hlog := hb.log ⟨crashEvent x, operation⟩ s'
    rw [← hlog] at hopened
    simp only [finish, giveUp, hb.crash, scene_rollback hb operation hopened, hlog, hgiven]
    exact .crashed hran

theorem course_within (hb : b.Faithful scene) (operation : Option Log.Operation) (w : Work ε α)
    (s : σ) :
    Course b scene operation w s (within b operation w s).1
      (scene (within b operation w s).2) := by
  unfold within around
  rw [hb.crash]
  rcases hb.begin s with ⟨p, s', hbegin, hs⟩ | ⟨token, l, s', hl, hbegin, hs⟩
  · rw [hbegin]
    simp only [hs]
    exact .notBegun p
  · rw [hbegin]
    obtain ⟨t, hran, hstore⟩ := exists_ran hb operation w hl hbegin hs
    exact course_finish hb hran hstore

/-- Whatever is injected into a unit of work and into the ends of its transaction, its working
copy is committed if it ends with a value, nothing changes otherwise, and the next transaction
can be opened on what is committed then. -/
theorem units_of_work_atomic (operation : Option Log.Operation) (w : Work ε α) (r : Rehearsal)
    (hfree : r.store.opened = none) :
    let x := within Rehearsal.backend operation w r
    (∀ a, x.1 = .value a → ∃ token opened ended,
      r.begin = (.ok token, opened) ∧ opened.store.view? token = some r.store.committed ∧
        w.run Rehearsal.backend operation token opened = (.value a, ended) ∧
        ended.store.view? token = some x.2.store.committed) ∧
      ((∀ a, x.1 ≠ .value a) → x.2.store.committed = r.store.committed) ∧
      ∃ token l, x.2.store.begin? = some (token, l) ∧
        l.view? token = some x.2.store.committed := by
  intro x
  have hcourse := course_within Rehearsal.faithful operation w r
  change Course _ _ operation w r x.1 (Rehearsal.scene x.2) at hcourse
  have hstore : x.2.store = (Rehearsal.scene x.2).store := rfl
  rw [hstore]
  generalize Rehearsal.scene x.2 = scene' at hcourse
  generalize x.1 = ended at hcourse
  cases hcourse with
  | notBegun p => exact ⟨nofun, fun _ => rfl, Locked.exists_begin? hfree⟩
  | committed ran =>
    refine ⟨?_, fun hne => absurd rfl (hne _), Locked.exists_begin? rfl⟩
    rintro a ⟨⟩
    obtain ⟨token, opened, hbegin, hview, hrun, hend⟩ := ran.ran
    exact ⟨token, opened, _, hbegin, hview, hrun, hend⟩
  | notCommitted p ran => exact ⟨nofun, fun _ => rfl, Locked.exists_begin? rfl⟩
  | failed ran => exact ⟨nofun, fun _ => rfl, Locked.exists_begin? rfl⟩
  | crashed ran => exact ⟨nofun, fun _ => rfl, Locked.exists_begin? rfl⟩

/-- A customer is stored, and then the work crashes where it would store an entry. -/
theorem crashed_insertion_leaves_nothing :
    let r : Rehearsal :=
      { faults := [{ method := .insertEntry, number := 1, effect := .crash (.text "no space") }] }
    let entry : NewEntry := ⟨⟨1⟩, ⟨5⟩, "title", "content", .earliest⟩
    let w : Work Problem Entry :=
      .call (.insertCustomer "anna@example.com") fun _ => ask (.insertEntry entry)
    r.store.opened = none ∧
      (within Rehearsal.backend none w r).1 = .crashed (.text "no space") ∧
      (within Rehearsal.backend none w r).2.store.committed = .empty := by
  intro r entry w
  have hcrash : (within Rehearsal.backend none w r).1 = .crashed (.text "no space") := rfl
  refine ⟨rfl, hcrash, (units_of_work_atomic none w r rfl).2.1 ?_⟩
  intro a ha
  cases hcrash.symm.trans ha

end MailDispatch.Transaction
