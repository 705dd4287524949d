import MailDispatch.Proofs.Work.Atomic

/-! # Work that nothing disturbs

While nothing goes wrong, work is a function of the tables and of the mail that is out. What a
transaction comes to is known beforehand where it gets all that it asks for, and it does so as long
as the backend is calm.
-/
namespace MailDispatch
open Store Work Mailing

variable {σ ε δ α β : Type}

namespace Work

/-- What work comes to if every call is performed and every mail accepted. -/
def eval : Work ε α → Tables → List Mail → Outcome ε α × Tables × List Mail
  | done a, t, out => (.value a, t, out)
  | fail e, t, out => (.error e, t, out)
  | crash x, t, out => (.crash x, t, out)
  | call c next, t, out => (next (t.perform c).1).eval (t.perform c).2 out
  | deliver m next, t, out => (next (.ok ())).eval t (out ++ [m])
  | log _ next, t, out => next.eval t out

theorem eval_bind (w : Work ε α) (f : α → Work ε β) (t : Tables) (out : List Mail) :
    (w.bind f).eval t out =
      match w.eval t out with
      | (.value a, u, out') => (f a).eval u out'
      | (.error e, u, out') => (.error e, u, out')
      | (.crash x, u, out') => (.crash x, u, out') := by
  induction w generalizing t out with
  | done | fail | crash => rfl
  | call c next ih => exact ih _ _ _
  | deliver m next ih => exact ih _ _ _
  | log e next ih => exact ih _ _

theorem eval_mapError (f : ε → δ) (w : Work ε α) (t : Tables) (out : List Mail) :
    (w.mapError f).eval t out = ((w.eval t out).1.mapError f, (w.eval t out).2) := by
  induction w generalizing t out with
  | done | fail | crash => rfl
  | call c next ih => exact ih _ _ _
  | deliver m next ih => exact ih _ _ _
  | log e next ih => exact ih _ _

def Outcome.ended : Outcome ε α → Ended ε α
  | .value a => .value a
  | .error e => .failed e
  | .crash x => .crashed x

/-- The tables that stay of a transaction with the given working copy. -/
def Outcome.kept (working committed : Tables) : Outcome ε α → Tables
  | .value _ => working
  | .error _ | .crash _ => committed

end Work

/-! ## Work that is served -/

/-- In its run on a backend every call of the work is performed, and every mail accepted. -/
def Work.Served (b : Backend σ) (scene : σ → Scene) (operation : Option Log.Operation)
    (token : Token) : Work ε α → σ → Prop
  | done _, _ | fail _, _ | crash _, _ => True
  | call c next, s =>
    ∃ s', b.call token c s = (.ofExcept ((scene s).store.call token c).1, s') ∧
      scene s' = { scene s with store := ((scene s).store.call token c).2 } ∧
      (next ((scene s).store.call token c).1).Served b scene operation token s'
  | deliver m next, s =>
    ∃ s', b.deliver m s = (.value (), s') ∧
      scene s' = { scene s with outbox := (scene s).outbox ++ [m] } ∧
      (next (.ok ())).Served b scene operation token s'
  | log e next, s => next.Served b scene operation token (b.log ⟨e, operation⟩ s)

/-- The transaction is opened, its work is served, and what ends with a value is committed. -/
def Transaction.Served (b : Backend σ) (scene : σ → Scene) (operation : Option Log.Operation)
    (w : Work ε α) (s : σ) : Prop :=
  ∃ token l s', (scene s).store.begin? = some (token, l) ∧ b.begin s = (.ok token, s') ∧
    scene s' = { scene s with store := l } ∧ w.Served b scene operation token s' ∧
    ∀ a t, w.run b operation token s' = (.value a, t) →
      ∃ t', b.commit token t = (((scene t).store.commit token).1, t') ∧
        scene t' = { scene t with store := ((scene t).store.commit token).2 }

section
variable {b : Backend σ} {scene : σ → Scene} {operation : Option Log.Operation} {token : Token}
  (hb : b.Faithful scene)
include hb

/-- Work that is served comes to what it is evaluated to. -/
theorem Work.Served.run {w : Work ε α} {s : σ} {t : Tables}
    (served : w.Served b scene operation token s)
    (ho : (scene s).store.opened = some (token, t)) :
    (w.run b operation token s).1 = (w.eval t (scene s).outbox).1 ∧
      scene (w.run b operation token s).2 =
        ⟨{ (scene s).store with opened := some (token, (w.eval t (scene s).outbox).2.1) },
          (w.eval t (scene s).outbox).2.2⟩ := by
  induction w generalizing s t with
  | done | fail | crash =>
    refine ⟨rfl, ?_⟩
    simp only [Work.run, Work.eval, ← ho]
  | call c next ih =>
    obtain ⟨s', hcall, hscene, hserved⟩ := served
    rw [Locked.call_of_opened ho] at hcall hscene hserved
    have hopened : (scene s').store.opened = some (token, (t.perform c).2) := by rw [hscene]
    have hnext := ih (t.perform c).1 hserved hopened
    rw [hscene] at hnext
    simp only [Work.run, Work.eval, hcall]
    cases hanswer : (t.perform c).1 with
    | ok a =>
      rw [hanswer] at hnext
      exact hnext
    | error p =>
      rw [hanswer] at hnext
      exact hnext
  | deliver m next ih =>
    obtain ⟨s', hdeliver, hscene, hserved⟩ := served
    have hopened : (scene s').store.opened = some (token, t) := by rw [hscene, ho]
    have hnext := ih (.ok ()) hserved hopened
    rw [hscene] at hnext
    simp only [Work.run, hdeliver]
    exact hnext
  | log e next ih =>
    have hscene := hb.log ⟨e, operation⟩ s
    have hnext := ih served (by rw [hscene, ho])
    rw [hscene] at hnext
    exact hnext

variable (operation) in
theorem Transaction.scene_giveUp (ended : Ended ε α) {s : σ} {t : Tables}
    (ho : (scene s).store.opened = some (token, t)) :
    (Transaction.giveUp b operation token ended s).1 = ended ∧
      scene (Transaction.giveUp b operation token ended s).2 =
        { scene s with store := { (scene s).store with opened := none } } := by
  unfold Transaction.giveUp
  rw [hb.crash]
  exact ⟨rfl, Transaction.scene_rollback hb operation ho⟩

/-- A transaction that is served ends as its work does. -/
theorem Transaction.Served.within {w : Work ε α} {s : σ}
    (served : Transaction.Served b scene operation w s) :
    let came := w.eval (scene s).store.committed (scene s).outbox
    (Transaction.within b operation w s).1 = came.1.ended ∧
      scene (Transaction.within b operation w s).2 =
        ⟨⟨came.1.kept came.2.1 (scene s).store.committed, none, (scene s).store.next + 1⟩,
          came.2.2⟩ := by
  intro came
  obtain ⟨token, l, s₁, hl, hbegin, hscene, hserved, hcommits⟩ := served
  obtain ⟨-, hview, hcommitted, -, hnext⟩ := Locked.begin?_eq_some hl
  have hopened : (scene s₁).store.opened = some (token, (scene s).store.committed) := by
    rw [hscene]
    exact Locked.view?_eq_some_iff.mp hview
  obtain ⟨houtcome, hworked⟩ := hserved.run hb hopened
  rw [hscene] at houtcome hworked
  dsimp only at houtcome hworked
  rw [hcommitted, hnext] at hworked
  have hwithin : Transaction.within b operation w s =
      Transaction.finish b operation token (w.run b operation token s₁) := by
    simp only [Transaction.within, Transaction.around, hb.crash, hbegin]
  rw [hwithin]
  generalize w.run b operation token s₁ = ran at houtcome hworked hcommits ⊢
  obtain ⟨outcome, s₂⟩ := ran
  obtain rfl : outcome = came.1 := houtcome
  have hopened₂ : (scene s₂).store.opened = some (token, came.2.1) := by rw [hworked]
  cases houtcome : came.1 with
  | value a =>
    obtain ⟨s₃, hcommit, hscene₃⟩ := hcommits a s₂ (by rw [houtcome])
    rw [Locked.commit_of_view? (Locked.view?_eq_some_iff.mpr hopened₂), hworked] at hcommit hscene₃
    simp only [Transaction.finish, hb.crash, hcommit]
    exact ⟨rfl, hscene₃⟩
  | error e =>
    obtain ⟨hended, hgiven⟩ :=
      Transaction.scene_giveUp operation hb (.failed (α := α) e) hopened₂
    rw [hworked] at hgiven
    exact ⟨hended, hgiven⟩
  | crash x =>
    have hlogged := hb.log ⟨Transaction.crashEvent x, operation⟩ s₂
    obtain ⟨hended, hgiven⟩ := Transaction.scene_giveUp operation hb
      (.crashed (ε := ε) (α := α) x) (s := b.log ⟨Transaction.crashEvent x, operation⟩ s₂)
      (by rw [hlogged, hopened₂])
    rw [hlogged, hworked] at hgiven
    exact ⟨hended, hgiven⟩

end

/-! ## Calm backends -/

/-- In calm states a backend does what it is asked, and then is in a calm state still. -/
structure Backend.Calm (b : Backend σ) (scene : σ → Scene) (calm : σ → Prop) : Prop where
  begin : ∀ {s}, calm s → ∀ {token l}, (scene s).store.begin? = some (token, l) →
    ∃ s', b.begin s = (.ok token, s') ∧ scene s' = { scene s with store := l } ∧ calm s'
  call : ∀ {s}, calm s → ∀ token c,
    ∃ s', b.call token c s = (.ofExcept ((scene s).store.call token c).1, s') ∧
      scene s' = { scene s with store := ((scene s).store.call token c).2 } ∧ calm s'
  deliver : ∀ {s}, calm s → ∀ m,
    ∃ s', b.deliver m s = (.value (), s') ∧
      scene s' = { scene s with outbox := (scene s).outbox ++ [m] } ∧ calm s'
  commit : ∀ {s}, calm s → ∀ token,
    ∃ s', b.commit token s = (((scene s).store.commit token).1, s') ∧
      scene s' = { scene s with store := ((scene s).store.commit token).2 } ∧ calm s'
  rollback : ∀ {s}, calm s → ∀ token, calm (b.rollback token s).2
  log : ∀ {s}, calm s → ∀ r, calm (b.log r s)

namespace Backend.Calm

variable {b : Backend σ} {scene : σ → Scene} {calm : σ → Prop} (hcalm : b.Calm scene calm)
include hcalm

theorem run (operation : Option Log.Operation) (token : Token) (w : Work ε α) {s : σ}
    (hs : calm s) :
    w.Served b scene operation token s ∧ calm (w.run b operation token s).2 := by
  induction w generalizing s with
  | done | fail | crash => exact ⟨trivial, hs⟩
  | call c next ih =>
    obtain ⟨s', hcall, hscene, hs'⟩ := hcalm.call hs token c
    have hnext := ih ((scene s).store.call token c).1 hs'
    refine ⟨⟨s', hcall, hscene, hnext.1⟩, ?_⟩
    simp only [Work.run, hcall]
    cases hanswer : ((scene s).store.call token c).1 with
    | ok a =>
      rw [hanswer] at hnext
      exact hnext.2
    | error p =>
      rw [hanswer] at hnext
      exact hnext.2
  | deliver m next ih =>
    obtain ⟨s', hdeliver, hscene, hs'⟩ := hcalm.deliver hs m
    obtain ⟨hserved, hran⟩ := ih (.ok ()) hs'
    refine ⟨⟨s', hdeliver, hscene, hserved⟩, ?_⟩
    simp only [Work.run, hdeliver]
    exact hran
  | log e next ih => exact ih (hcalm.log hs ⟨e, operation⟩)

theorem served (operation : Option Log.Operation) (w : Work ε α) {s : σ} (hs : calm s)
    (closed : (scene s).store.opened = none) : Transaction.Served b scene operation w s := by
  obtain ⟨token, l, hl, -⟩ := Locked.exists_begin? closed
  obtain ⟨s', hbegin, hscene, hs'⟩ := hcalm.begin hs hl
  obtain ⟨hserved, hran⟩ := hcalm.run operation token w hs'
  refine ⟨token, l, s', hl, hbegin, hscene, hserved, ?_⟩
  intro a t hrun
  rw [hrun] at hran
  obtain ⟨t', hcommit, hscene', -⟩ := hcalm.commit hran token
  exact ⟨t', hcommit, hscene'⟩

theorem rolledBack (operation : Option Log.Operation) (token : Token) {s : σ} (hs : calm s) :
    calm (Transaction.rollback b operation token s) := by
  have hrollback := hcalm.rollback hs token
  unfold Transaction.rollback
  split
  · next hanswer => rwa [hanswer] at hrollback
  · next hanswer =>
    rw [hanswer] at hrollback
    exact hcalm.log hrollback _

/-- After a transaction it is as calm as it was before. -/
theorem within (hb : b.Faithful scene) (operation : Option Log.Operation) (w : Work ε α) {s : σ}
    (hs : calm s) (closed : (scene s).store.opened = none) :
    calm (Transaction.within b operation w s).2 := by
  obtain ⟨token, l, hl, -⟩ := Locked.exists_begin? closed
  obtain ⟨s', hbegin, -, hs'⟩ := hcalm.begin hs hl
  obtain ⟨-, hran⟩ := hcalm.run operation token w hs'
  simp only [Transaction.within, Transaction.around, hb.crash, hbegin]
  generalize w.run b operation token s' = ran at hran ⊢
  rcases ran with ⟨a | e | x, t⟩
  · obtain ⟨t', hcommit, -, ht'⟩ := hcalm.commit hran token
    simp only [Transaction.finish, hb.crash, hcommit]
    cases ((scene t).store.commit token).1 with
    | ok u | error p => exact ht'
  · simp only [Transaction.finish, Transaction.giveUp, hb.crash]
    exact hcalm.rolledBack operation token hran
  · simp only [Transaction.finish, Transaction.giveUp, hb.crash]
    exact hcalm.rolledBack operation token (hcalm.log hran _)

/-- Work that comes to a value is committed. -/
theorem within_of_eval (hb : b.Faithful scene) (operation : Option Log.Operation) {w : Work ε α}
    {s : σ} (hs : calm s) (closed : (scene s).store.opened = none) {a : α} {t : Tables}
    {out : List Mail}
    (came : w.eval (scene s).store.committed (scene s).outbox = (.value a, t, out)) :
    (Transaction.within b operation w s).1 = .value a ∧
      calm (Transaction.within b operation w s).2 ∧
      scene (Transaction.within b operation w s).2 =
        ⟨⟨t, none, (scene s).store.next + 1⟩, out⟩ := by
  obtain ⟨hanswer, hscene⟩ := (hcalm.served operation w hs closed).within hb
  rw [came] at hanswer hscene
  exact ⟨hanswer, hcalm.within hb operation w hs closed, hscene⟩

end Backend.Calm

namespace Rehearsal

variable {r : Rehearsal}

/-- No step of a transaction fails, and no fault is left for any call or delivery to come. -/
structure Undisturbed (r : Rehearsal) : Prop where
  begins : r.flags.failBegin = false
  commits : r.flags.failCommit = false
  faultless : ∀ m n recipient, r.used.count m < n → effectOf r.faults m n recipient = .nothing

theorem Undisturbed.effect (h : Undisturbed r) (m : Method) (recipient : Option String) :
    effectOf r.faults m ((m :: r.used).count m) recipient = .nothing :=
  h.faultless m _ recipient (by rw [List.count_cons_self]; exact Nat.lt_succ_self _)

theorem Undisturbed.used (h : Undisturbed r) (m : Method) {s : Rehearsal}
    (flags : s.flags = r.flags) (faults : s.faults = r.faults) (used : s.used = m :: r.used) :
    Undisturbed s where
  begins := flags ▸ h.begins
  commits := flags ▸ h.commits
  faultless := by
    intro m' n recipient hn
    rw [faults]
    refine h.faultless m' n recipient (Nat.lt_of_le_of_lt ?_ hn)
    rw [used, List.count_cons]
    exact Nat.le_add_right _ _

theorem calm : backend.Calm scene Undisturbed where
  begin {r} h token l hl := by
    have hbegin : r.store.begin? = some (token, l) := hl
    refine ⟨{ r with store := l, counters.begun := r.counters.begun + 1 }, ?_, rfl,
      ⟨h.begins, h.commits, h.faultless⟩⟩
    simp [backend, Rehearsal.begin, h.begins, hbegin]
  call {r} h token c := by
    have heffect := h.effect c.method none
    refine ⟨{ r with
      calls := r.calls ++ [c], used := c.method :: r.used
      store := (r.store.call token c).2 }, ?_, rfl, h.used c.method rfl rfl rfl⟩
    simp only [backend, Rehearsal.call, use, heffect, scene]
    rcases r.store.call token c with ⟨p | a, store⟩ <;> rfl
  deliver {r} h m := by
    have heffect := h.effect .deliver (some m.recipient)
    refine ⟨{ r with used := .deliver :: r.used, outbox := r.outbox ++ [m] }, ?_, rfl,
      h.used .deliver rfl rfl rfl⟩
    simp only [backend, Rehearsal.deliver, use, heffect]
  commit {r} h token := by
    refine ⟨{ r with
      counters.commits := r.counters.commits + 1, store := (r.store.commit token).2 }, ?_, rfl,
      ⟨h.begins, h.commits, h.faultless⟩⟩
    simp [backend, Rehearsal.commit, h.commits, scene]
  rollback {r} h token := by
    simp only [backend, Rehearsal.rollback]
    split
    · exact ⟨h.begins, h.commits, h.faultless⟩
    · exact ⟨h.begins, h.commits, h.faultless⟩
  log h _ := ⟨h.begins, h.commits, h.faultless⟩

end Rehearsal
end MailDispatch
