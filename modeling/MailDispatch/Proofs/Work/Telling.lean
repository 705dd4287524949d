import MailDispatch.Proofs.Work.Faithful

/-! # What work tells the log

A backend that keeps a log adds to it what it is given, and nothing of its own. So what a
transaction leaves in the log is what its work tells, and what the transaction tells of its own end.
-/
namespace MailDispatch
open Store Work Mailing

variable {σ ε δ α β : Type}

namespace Work

/-- Every event that work may report is of the given kind. -/
def Tells (Q : Log.Event → Prop) : Work ε α → Prop
  | done _ | fail _ | crash _ => True
  | call _ next => ∀ r, (next r).Tells Q
  | deliver _ next => ∀ r, (next r).Tells Q
  | log e next => Q e ∧ next.Tells Q

namespace Tells

variable {Q : Log.Event → Prop}

theorem bind {w : Work ε α} {f : α → Work ε β} (h : w.Tells Q) (hf : ∀ a, (f a).Tells Q) :
    (w.bind f).Tells Q := by
  induction w with
  | done a => exact hf a
  | fail | crash => trivial
  | call c next ih => exact fun r => ih r (h r)
  | deliver m next ih => exact fun r => ih r (h r)
  | log e next ih => exact ⟨h.1, ih h.2⟩

theorem mapError {f : ε → δ} {w : Work ε α} (h : w.Tells Q) : (w.mapError f).Tells Q := by
  induction w with
  | done | fail | crash => trivial
  | call c next ih => exact fun r => ih r (h r)
  | deliver m next ih => exact fun r => ih r (h r)
  | log e next ih => exact ⟨h.1, ih h.2⟩

theorem ask (c : Call) : (Work.ask c).Tells Q := by
  rintro (p | a) <;> trivial

theorem each {f : α → Work ε Unit} (hf : ∀ a, (f a).Tells Q) (as : List α) :
    (Work.each f as).Tells Q := by
  induction as with
  | nil => trivial
  | cons a as ih => exact (hf a).bind fun _ => ih

/-- What calls, deliveries and the events of some work keep from state to state is kept by a run
of it. -/
theorem run {b : Backend σ} {operation : Option Log.Operation} {token : Token}
    {R : σ → σ → Prop} (refl : ∀ s, R s s) (trans : ∀ {s t u}, R s t → R t u → R s u)
    (call : ∀ c s, R s (b.call token c s).2) (deliver : ∀ m s, R s (b.deliver m s).2)
    (log : ∀ {e}, Q e → ∀ s, R s (b.log ⟨e, operation⟩ s)) {w : Work ε α} (h : w.Tells Q) (s : σ) :
    R s (w.run b operation token s).2 := by
  induction w generalizing s with
  | done | fail | crash => exact refl s
  | call c next ih =>
    have hcall := call c s
    simp only [Work.run]
    generalize b.call token c s = called at hcall ⊢
    rcases called with ⟨a | p | x, s'⟩
    · exact trans hcall (ih (.ok a) (h _) s')
    · exact trans hcall (ih (.error p) (h _) s')
    · exact hcall
  | deliver m next ih =>
    have hdeliver := deliver m s
    simp only [Work.run]
    generalize b.deliver m s = delivered at hdeliver ⊢
    rcases delivered with ⟨u | e | x, s'⟩
    · exact trans hdeliver (ih (.ok u) (h _) s')
    · exact trans hdeliver (ih (.error e) (h _) s')
    · exact hdeliver
  | log e next ih => exact trans (log h.1 s) (ih h.2 _)

end Tells

theorem tells_true (w : Work ε α) : w.Tells fun _ => True := by
  induction w with
  | done | fail | crash => trivial
  | call c next ih => exact ih
  | deliver m next ih => exact ih
  | log e next ih => exact ⟨trivial, ih⟩

end Work

/-- The records of a backend are what it was given to log, in its order. -/
structure Backend.Logs (b : Backend σ) (records : σ → List Log.Record) : Prop where
  begin : ∀ s, records (b.begin s).2 = records s
  call : ∀ token c s, records (b.call token c s).2 = records s
  deliver : ∀ m s, records (b.deliver m s).2 = records s
  commit : ∀ token s, records (b.commit token s).2 = records s
  rollback : ∀ token s, records (b.rollback token s).2 = records s
  crash : ∀ {stage s c s'}, b.crash stage s = some (c, s') → records s' = records s
  log : ∀ r s, records (b.log r s) = records s ++ [r]

namespace Backend.Logs

variable {records : σ → List Log.Record} {Q : Log.Event → Prop}

/-- Between two states nothing but events of the given kind has been logged. -/
def Only (records : σ → List Log.Record) (Q : Log.Event → Prop) (s s' : σ) : Prop :=
  ∃ added, records s' = records s ++ added ∧ ∀ r ∈ added, Q r.event

theorem Only.of_eq {s s' : σ} (h : records s' = records s) : Only records Q s s' :=
  ⟨[], by rw [h, List.append_nil], fun _ hr => nomatch hr⟩

theorem Only.trans {s s' s'' : σ} (h : Only records Q s s') (k : Only records Q s' s'') :
    Only records Q s s'' := by
  obtain ⟨added, hs', hadded⟩ := h
  obtain ⟨more, hs'', hmore⟩ := k
  refine ⟨added ++ more, by rw [hs'', hs', List.append_assoc], ?_⟩
  exact fun r hr => (List.mem_append.mp hr).elim (hadded r) (hmore r)

/-- What is of another kind is in the log still, and no more of it. -/
theorem Only.filter_eq {s s' : σ} (h : Only records Q s s') {p : Log.Record → Bool}
    (hp : ∀ r, Q r.event → p r = false) : (records s').filter p = (records s).filter p := by
  obtain ⟨added, hs', hadded⟩ := h
  have hnone : added.filter p = [] := by
    rw [List.filter_eq_nil_iff]
    intro r hr
    rw [hp r (hadded r hr)]
    exact Bool.false_ne_true
  rw [hs', List.filter_append, hnone, List.append_nil]

variable {b : Backend σ} (hlog : b.Logs records)
include hlog

theorem only_log {r : Log.Record} (hr : Q r.event) (s : σ) : Only records Q s (b.log r s) :=
  ⟨[r], hlog.log r s, List.forall_mem_singleton.mpr hr⟩

theorem foldl_log (rs : List Log.Record) (s : σ) :
    records (rs.foldl (fun s r => b.log r s) s) = records s ++ rs := by
  induction rs generalizing s with
  | nil => exact (List.append_nil _).symm
  | cons r rs ih =>
    rw [List.foldl_cons, ih, hlog.log, List.append_assoc, List.singleton_append]

theorem only_run (operation : Option Log.Operation) (token : Token) {w : Work ε α} (h : w.Tells Q)
    (s : σ) : Only records Q s (w.run b operation token s).2 :=
  h.run (fun _ => .of_eq rfl) .trans (fun c s => .of_eq (hlog.call token c s))
    (fun m s => .of_eq (hlog.deliver m s)) (fun he => hlog.only_log he) s

variable (hrollback : ∀ p, Q (Transaction.rollbackEvent p))
include hrollback

theorem only_giveUp (operation : Option Log.Operation) (token : Token) (ended : Ended ε α) (s : σ) :
    Only records Q s (Transaction.giveUp b operation token ended s).2 := by
  unfold Transaction.giveUp Transaction.rollback
  cases hcrash : b.crash (.rollback token) s with
  | some crashed => exact .of_eq (hlog.crash hcrash)
  | none =>
    have hrolled := hlog.rollback token s
    dsimp only
    generalize b.rollback token s = rolled at hrolled ⊢
    rcases rolled with ⟨p | u, s'⟩
    · exact .trans (.of_eq hrolled) (hlog.only_log (hrollback p) s')
    · exact .of_eq hrolled

/-- Of its own end a transaction tells no more than that its work crashed, or that it could not be
rolled back. -/
theorem only_finish (hcrash : ∀ c, Q (Transaction.crashEvent c)) (operation : Option Log.Operation)
    (token : Token) (o : Outcome ε α) (s : σ) :
    Only records Q s (Transaction.finish b operation token (o, s)).2 := by
  cases o with
  | value a =>
    simp only [Transaction.finish]
    cases hcrashed : b.crash (.commit token) s with
    | some crashed => exact .of_eq (hlog.crash hcrashed)
    | none =>
      have hcommit := hlog.commit token s
      dsimp only
      generalize b.commit token s = committed at hcommit ⊢
      rcases committed with ⟨p | u, s'⟩ <;> exact .of_eq hcommit
  | error e => exact hlog.only_giveUp hrollback operation token _ s
  | crash c =>
    exact .trans (hlog.only_log (r := ⟨Transaction.crashEvent c, operation⟩) (hcrash c) s)
      (hlog.only_giveUp hrollback operation token _ _)

theorem only_within (hcrash : ∀ c, Q (Transaction.crashEvent c))
    (operation : Option Log.Operation) {w : Work ε α} (h : w.Tells Q) (s : σ) :
    Only records Q s (Transaction.within b operation w s).2 := by
  unfold Transaction.within Transaction.around
  cases hcrashed : b.crash .begin s with
  | some crashed => exact .of_eq (hlog.crash hcrashed)
  | none =>
    have hbegin := hlog.begin s
    dsimp only
    generalize b.begin s = begun at hbegin ⊢
    rcases begun with ⟨p | token, s'⟩
    · exact .of_eq hbegin
    · exact .trans (.of_eq hbegin) (.trans (hlog.only_run operation token h s')
        (hlog.only_finish hrollback hcrash operation token _ _))

end Backend.Logs

theorem Rehearsal.logs : Rehearsal.backend.Logs Rehearsal.log where
  begin r := by
    simp only [backend, Rehearsal.begin]
    split
    · rfl
    · split <;> rfl
  call token c r := by
    simp only [backend, Rehearsal.call, use]
    cases effectOf r.faults c.method (List.count c.method (c.method :: r.used)) none with
    | problem p | crash x => rfl
    | refusal _ | nothing =>
      dsimp only
      rcases r.store.call token c with ⟨p | a, store⟩ <;> rfl
  deliver m r := by
    simp only [backend, Rehearsal.deliver, use]
    cases effectOf r.faults .deliver (List.count .deliver (.deliver :: r.used))
      (some m.recipient) <;> rfl
  commit token r := by
    simp only [backend, Rehearsal.commit]
    split <;> rfl
  rollback token r := by
    simp only [backend, Rehearsal.rollback]
    split <;> rfl
  crash h := nomatch h
  log _ _ := rfl

end MailDispatch
