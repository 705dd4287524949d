import MailDispatch.Proofs.Api.Traffic
import MailDispatch.Proofs.Work.Telling
import MailDispatch.Proofs.Work.Traced

/-! # Accounts of transactions

Opening a transaction is worth one, ending it takes the one away, and nothing else counts. Whatever
a backend answers, a whole transaction leaves the account as it was. So do requests and cleanups,
however many transactions they have and wherever they break off.
-/
namespace MailDispatch
open Store Work Mailing Service

variable {σ ε α : Type}

/-- What ending a transaction takes off the account. Crashing in doing so counts as well. -/
def Backend.Stage.cost : Backend.Stage → Int
  | .begin => 0
  | .commit _ | .rollback _ => 1

structure Backend.Balanced (b : Backend σ) (balance : σ → Int) : Prop where
  opened : ∀ {s token}, (b.begin s).1 = .ok token → balance (b.begin s).2 = balance s + 1
  unopened : ∀ {s p}, (b.begin s).1 = .error p → balance (b.begin s).2 = balance s
  commit : ∀ token s, balance (b.commit token s).2 = balance s - 1
  rollback : ∀ token s, balance (b.rollback token s).2 = balance s - 1
  call : ∀ token c s, balance (b.call token c s).2 = balance s
  deliver : ∀ m s, balance (b.deliver m s).2 = balance s
  log : ∀ r s, balance (b.log r s) = balance s
  crash : ∀ {stage s c t}, b.crash stage s = some (c, t) → balance t = balance s - stage.cost

namespace Backend.Balanced

variable {b : Backend σ} {balance : σ → Int} (h : b.Balanced balance)
include h

theorem run (operation : Option Log.Operation) (token : Token) (w : Work ε α) (s : σ) :
    balance (w.run b operation token s).2 = balance s :=
  w.tells_true.run (R := fun s t => balance t = balance s) (fun _ => rfl)
    (fun hst htu => htu.trans hst) (h.call token) h.deliver (fun _ => h.log _) s

theorem giveUp (operation : Option Log.Operation) (token : Token) (ended : Ended ε α) (s : σ) :
    balance (Transaction.giveUp b operation token ended s).2 = balance s - 1 := by
  have hrollback := h.rollback token s
  unfold Transaction.giveUp Transaction.rollback
  cases hcrash : b.crash (.rollback token) s with
  | some crashed => exact h.crash hcrash
  | none =>
    dsimp only
    generalize b.rollback token s = answered at hrollback ⊢
    rcases answered with ⟨p | u, t⟩
    · exact (h.log _ t).trans hrollback
    · exact hrollback

theorem finish (operation : Option Log.Operation) (token : Token) (ran : Outcome ε α × σ) :
    balance (Transaction.finish b operation token ran).2 = balance ran.2 - 1 := by
  rcases ran with ⟨a | e | c, s⟩
  · have hcommit := h.commit token s
    simp only [Transaction.finish]
    cases hcrash : b.crash (.commit token) s with
    | some crashed => exact h.crash hcrash
    | none =>
      dsimp only
      generalize b.commit token s = answered at hcommit ⊢
      rcases answered with ⟨p | u, t⟩ <;> exact hcommit
  · exact h.giveUp operation token _ s
  · exact (h.giveUp operation token _ _).trans (congrArg (· - 1) (h.log _ s))

theorem within (operation : Option Log.Operation) (w : Work ε α) (s : σ) :
    balance (Transaction.within b operation w s).2 = balance s := by
  unfold Transaction.within Transaction.around
  cases hcrash : b.crash .begin s with
  | some crashed => exact (h.crash hcrash).trans (Int.sub_zero _)
  | none =>
    dsimp only
    rcases hbegin : b.begin s with ⟨p | token, t⟩
    · have hunopened := h.unopened (show (b.begin s).1 = .error p by rw [hbegin])
      rwa [hbegin] at hunopened
    · have hopened := h.opened (show (b.begin s).1 = .ok token by rw [hbegin])
      rw [hbegin] at hopened
      calc
        balance (Transaction.finish b operation token (w.run b operation token t)).2
        _ = balance (w.run b operation token t).2 - 1 := h.finish operation token _
        _ = balance t - 1 := by rw [h.run]
        _ = balance s := by rw [hopened]; omega

theorem steady (emailer : Emailer) (n : Int) : Api.Steady b emailer fun s => balance s = n where
  log r s hs := (h.log r s).trans hs
  create _ o _ hs := (h.within o _ _).trans hs
  remove _ o _ hs := (h.within o _ _).trans hs
  send _ o _ hs := (h.within o _ _).trans hs
  purge _ _ o _ hs := (h.within o _ _).trans hs
  purgeMailing _ _ _ o _ hs := (h.within o _ _).trans hs

end Backend.Balanced

/-! ## The account of what was asked -/

namespace Query

def opens : Query → Bool
  | .begin (.value _) => true
  | _ => false

def closes : Query → Bool
  | .commit _ _ | .rollback _ _ => true
  | _ => false

def balance (qs : List Query) : Int := qs.countP opens - qs.countP closes

theorem balance_append (qs rs : List Query) : balance (qs ++ rs) = balance qs + balance rs := by
  simp only [balance, List.countP_append]
  omega

end Query

/-- Whatever the answers of a backend are, what it is asked for keeps its account. -/
theorem Backend.balanced_traced (b : Backend σ) : b.traced.Balanced fun s => Query.balance s.2 where
  opened {s token} hopened := by
    have hanswer : (b.begin s.1).1 = .ok token := hopened
    simp only [Backend.traced, Query.balance_append, hanswer]
    rfl
  unopened {s p} hunopened := by
    have hanswer : (b.begin s.1).1 = .error p := hunopened
    simp only [Backend.traced, Query.balance_append, hanswer]
    exact Int.add_zero _
  commit _ _ := Query.balance_append _ _
  rollback _ _ := Query.balance_append _ _
  call _ _ _ := (Query.balance_append _ _).trans (Int.add_zero _)
  deliver _ _ := (Query.balance_append _ _).trans (Int.add_zero _)
  log _ _ := (Query.balance_append _ _).trans (Int.add_zero _)
  crash {stage s c t} hcrash := by
    obtain ⟨crashed, -, heq⟩ := Option.map_eq_some_iff.mp hcrash
    obtain ⟨-, rfl⟩ := Prod.mk.inj heq
    cases stage with
    | begin =>
      exact (Query.balance_append _ _).trans ((Int.add_zero _).trans (Int.sub_zero _).symm)
    | commit token | rollback token => exact Query.balance_append _ _

namespace Rehearsal

/-- The transactions that were begun and not ended. -/
def pending (r : Rehearsal) : Int := r.counters.begun - r.counters.commits - r.counters.rollbacks

theorem balanced : backend.Balanced pending where
  opened {r token} hopened := by
    revert hopened
    simp only [backend, Rehearsal.begin]
    split
    · intro hopened
      cases hopened
    · split
      · intro _
        simp only [pending]
        omega
      · intro hopened
        cases hopened
  unopened {r p} hunopened := by
    revert hunopened
    simp only [backend, Rehearsal.begin]
    split
    · exact fun _ => rfl
    · split
      · intro hunopened
        cases hunopened
      · exact fun _ => rfl
  commit token r := by
    simp only [backend, Rehearsal.commit]
    split
    · simp only [pending]
      omega
    · simp only [pending]
      omega
  rollback token r := by
    simp only [backend, Rehearsal.rollback]
    split
    · simp only [pending]
      omega
    · simp only [pending]
      omega
  call token c r := by
    simp only [backend, Rehearsal.call, use]
    cases effectOf r.faults c.method (List.count c.method (c.method :: r.used)) none with
    | problem p | crash x => rfl
    | refusal message | nothing =>
      dsimp only
      rcases r.store.call token c with ⟨p | a, store⟩ <;> rfl
  deliver m r := by
    simp only [backend, Rehearsal.deliver, use]
    cases effectOf r.faults .deliver (List.count .deliver (.deliver :: r.used))
        (some m.recipient) with
    | problem p | refusal message | crash x | nothing => rfl
  log _ _ := rfl
  crash hcrash := by cases hcrash

theorem pending_configure (faults : Option (List Fault)) (change : FlagChange) (r : Rehearsal) :
    (r.configure faults change).pending = r.pending := by
  cases faults with
  | none | some faults => rfl

end Rehearsal

namespace Api

/-- A transaction is ended exactly once, if it was begun, after its work and by a commit exactly if
the work has a value. Its result is that of the work, unless a step of the transaction itself gives
none. So requests and cleanups have begun as many transactions as they have ended, whatever fails. -/
theorem transactions_end_exactly_once :
    (∀ {σ ε α : Type} (b : Backend σ) (operation : Option Log.Operation) (w : Work ε α) (s : σ),
      ∃ asked, Transaction.Transcript b operation w s asked (Transaction.within b operation w s).1 ∧
        Transaction.within b.traced operation w (s, []) =
          ((Transaction.within b operation w s).1, (Transaction.within b operation w s).2, asked) ∧
        ((∃ a, (Transaction.within b operation w s).1 = .value a) ↔
          ∃ token, Query.commit token (.value ()) ∈ asked) ∧
        asked.countP Query.opens = asked.countP Query.closes) ∧
    (∀ {σ : Type} (b : Backend σ) (emailer : Emailer) (threshold : Time.Span) (now : Time.Timestamp)
      (id : String) (r : Http.Request) (s : σ) (before : List Query),
      let app : App (σ × List Query) := ⟨b.traced, emailer, threshold, now⟩
      Query.balance (app.respond id r (s, before)).2.2 = Query.balance before ∧
        Query.balance (Cleanup.runOnce b.traced id now threshold (s, before)).2 =
          Query.balance before) ∧
    ∀ (emailer : Emailer) (threshold : Time.Span) (t : Traffic) (es : List Traffic.Event),
      let before := t.rehearsal.counters
      let after := (Traffic.run emailer threshold t es).2.rehearsal.counters
      after.begun + (before.commits + before.rollbacks) =
        before.begun + (after.commits + after.rollbacks) := by
  refine ⟨?_, ?_, ?_⟩
  · intro σ ε α b operation w s
    obtain ⟨asked, htranscript, htraced⟩ := Transaction.transcript_within b operation w s []
    rw [List.nil_append] at htraced
    refine ⟨asked, htranscript, htraced, htranscript.value_iff, ?_⟩
    have hbalance := b.balanced_traced.within operation w (s, [])
    rw [htraced] at hbalance
    simp only [Query.balance, List.countP_nil] at hbalance
    omega
  · intro σ b emailer threshold now id r s before app
    have hsteady : Steady app.backend app.emailer fun s => Query.balance s.2 = _ :=
      b.balanced_traced.steady emailer (Query.balance before)
    refine ⟨?_, hsteady.runOnce id now threshold rfl⟩
    have harrived := hsteady.arrive id r (s := (s, before)) rfl
    rw [App.respond_eq]
    generalize app.arrive id r (s, before) = ran at harrived ⊢
    rcases ran with ⟨response | w, s'⟩
    · exact harrived
    · exact hsteady.proceed w harrived
  · intro emailer threshold t es
    have hpending := Traffic.steady_run threshold
      (Rehearsal.balanced.steady emailer t.rehearsal.pending)
      (fun faults change r hr => (r.pending_configure faults change).trans hr) es rfl
    simp only [Rehearsal.pending] at hpending
    dsimp only
    omega

end Api
end MailDispatch
