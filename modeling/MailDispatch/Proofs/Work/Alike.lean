import MailDispatch.Work.Transaction

/-! # Runs that differ in texts only

Two runs are alike if the same steps succeed in both, with the same values, and the others
fail or crash in the same way, in whatever words. Work may look at the kind of a problem but
goes on alike in both runs as long as it does not look at its words; and then so does the
transaction around it.
-/
namespace MailDispatch
open Store Work

/-- The problems are of the same kind. -/
def Store.Problem.Alike : Problem → Problem → Prop
  | .noRow _, .noRow _ => True
  | .manyRows _, .manyRows _ => True
  | .closed, .closed => True
  | .failed _ _, .failed _ _ => True
  | _, _ => False

theorem Store.Problem.Alike.isNoRow_eq {p q : Problem} (h : p.Alike q) : p.isNoRow = q.isNoRow := by
  cases p <;> cases q <;> first | rfl | exact absurd h id

/-- Refusals of mail have nothing but their words. -/
def anyText (_ _ : String) : Prop := True

/-- The answers are the same, or errors that are related. -/
inductive Agree {ε α : Type} (E : ε → ε → Prop) : Except ε α → Except ε α → Prop where
  | ok (a : α) : Agree E (.ok a) (.ok a)
  | error {e f : ε} (h : E e f) : Agree E (.error e) (.error f)

/-- The outcomes are the same value, related errors, or two crashes. -/
inductive Work.Outcome.Alike {ε α : Type} (E : ε → ε → Prop) :
    Outcome ε α → Outcome ε α → Prop where
  | value (a : α) : Alike E (.value a) (.value a)
  | error {e f : ε} (h : E e f) : Alike E (.error e) (.error f)
  | crash (c d : Crash) : Alike E (.crash c) (.crash d)

/-- The ends of two transactions are the same value, related errors, or fail in the same way. -/
inductive Ended.Alike {ε α : Type} (E : ε → ε → Prop) : Ended ε α → Ended ε α → Prop where
  | value (a : α) : Alike E (.value a) (.value a)
  | failed {e f : ε} (h : E e f) : Alike E (.failed e) (.failed f)
  | crashed (c d : Crash) : Alike E (.crashed c) (.crashed d)
  | notBegun (p q : Problem) : Alike E (.notBegun p) (.notBegun q)
  | notCommitted (p q : Problem) : Alike E (.notCommitted p) (.notCommitted q)

variable {σ τ ε δ α β : Type} {E : ε → ε → Prop} {D : δ → δ → Prop}

/-! ## Work -/

/-- The same calls and deliveries in the same order, as long as they are answered alike. What is
logged does not matter. -/
inductive Work.Alike (E : ε → ε → Prop) : Work ε α → Work ε α → Prop where
  | done (a : α) : Alike E (done a) (done a)
  | fail {e f : ε} (h : E e f) : Alike E (fail e) (fail f)
  | crash (c d : Crash) : Alike E (crash c) (crash d)
  | call (c : Call) {next later : Answered c → Work ε α}
    (h : ∀ r s, Agree Problem.Alike r s → Alike E (next r) (later s)) :
    Alike E (call c next) (call c later)
  | deliver (m : Mailing.Mail) {next later : Except String Unit → Work ε α}
    (h : ∀ r s, Agree anyText r s → Alike E (next r) (later s)) :
    Alike E (deliver m next) (deliver m later)
  | log (e f : Log.Event) {v w : Work ε α} (h : Alike E v w) : Alike E (log e v) (log f w)

namespace Work.Alike

theorem bind {v w : Work ε α} {f g : α → Work ε β} (h : v.Alike E w)
    (hfg : ∀ a, (f a).Alike E (g a)) : (v.bind f).Alike E (w.bind g) := by
  induction h with
  | done a => exact hfg a
  | fail h => exact .fail h
  | crash c d => exact .crash c d
  | call c h ih => exact .call c ih
  | deliver m h ih => exact .deliver m ih
  | log e f h ih => exact .log e f ih

theorem mapError {v w : Work ε α} {f g : ε → δ} (h : v.Alike E w)
    (hfg : ∀ a b, E a b → D (f a) (g b)) : (v.mapError f).Alike D (w.mapError g) := by
  induction h with
  | done a => exact .done a
  | fail h => exact .fail (hfg _ _ h)
  | crash c d => exact .crash c d
  | call c h ih => exact .call c ih
  | deliver m h ih => exact .deliver m ih
  | log e f h ih => exact .log e f ih

theorem ask (c : Call) : (ask c).Alike Problem.Alike (Work.ask c) := by
  refine .call c ?_
  rintro r s (a | h)
  · exact .done a
  · exact .fail h

theorem report (e : Log.Event) : (report e : Work ε Unit).Alike E (Work.report e) :=
  .log e e (.done ())

theorem each {f : α → Work ε Unit} (hf : ∀ a, (f a).Alike E (f a)) (as : List α) :
    (each f as).Alike E (Work.each f as) := by
  induction as with
  | nil => exact .done ()
  | cons a as ih => exact (hf a).bind fun _ => ih

end Work.Alike

/-! ## Backends -/

/-- The same result and related states afterwards. -/
def Both (A : α → β → Prop) (R : σ → τ → Prop) (x : α × σ) (y : β × τ) : Prop :=
  A x.1 y.1 ∧ R x.2 y.2

theorem Both.exists_eq {A : α → β → Prop} {R : σ → τ → Prop} {x : α × σ} {y : β × τ}
    (h : Both A R x y) : ∃ a b s t, x = (a, s) ∧ y = (b, t) ∧ A a b ∧ R s t :=
  ⟨_, _, _, _, rfl, rfl, h.1, h.2⟩

/-- The backends answer alike on related states, which they leave related. -/
structure Backend.Alike (R : σ → τ → Prop) (b : Backend σ) (c : Backend τ) : Prop where
  begin : ∀ s t, R s t → Both (Agree Problem.Alike) R (b.begin s) (c.begin t)
  commit : ∀ token s t, R s t →
    Both (Agree Problem.Alike) R (b.commit token s) (c.commit token t)
  rollback : ∀ token s t, R s t →
    Both (Agree Problem.Alike) R (b.rollback token s) (c.rollback token t)
  call : ∀ token question s t, R s t →
    Both (Outcome.Alike Problem.Alike) R (b.call token question s) (c.call token question t)
  deliver : ∀ m s t, R s t → Both (Outcome.Alike anyText) R (b.deliver m s) (c.deliver m t)
  log : ∀ record other s t, R s t → R (b.log record s) (c.log other t)
  crash : ∀ stage s t, R s t →
    b.crash stage s = none ∧ c.crash stage t = none ∨
      ∃ x y s' t', b.crash stage s = some (x, s') ∧ c.crash stage t = some (y, t') ∧ R s' t'

namespace Backend.Alike

variable {R : σ → τ → Prop} {b : Backend σ} {c : Backend τ}

/-- Alike work ends alike on alike backends, whatever the operations are. -/
theorem run (h : Backend.Alike R b c) {v w : Work ε α} (hvw : v.Alike E w)
    (o o' : Option Log.Operation) (token : Token) {s : σ} {t : τ} (hst : R s t) :
    Both (Outcome.Alike E) R (v.run b o token s) (w.run c o' token t) := by
  induction hvw generalizing s t with
  | done a => exact ⟨.value a, hst⟩
  | fail hef => exact ⟨.error hef, hst⟩
  | crash x y => exact ⟨.crash x y, hst⟩
  | call question hnext ih =>
    obtain ⟨answer, answer', s', t', hs, ht, hanswer, hstates⟩ :=
      (h.call token question s t hst).exists_eq
    simp only [Work.run, hs, ht]
    cases hanswer with
    | value a => exact ih _ _ (.ok a) hstates
    | error hpq => exact ih _ _ (.error hpq) hstates
    | crash x y => exact ⟨.crash x y, hstates⟩
  | deliver m hnext ih =>
    obtain ⟨answer, answer', s', t', hs, ht, hanswer, hstates⟩ :=
      (h.deliver m s t hst).exists_eq
    simp only [Work.run, hs, ht]
    cases hanswer with
    | value a => exact ih _ _ (.ok a) hstates
    | error hpq => exact ih _ _ (.error hpq) hstates
    | crash x y => exact ⟨.crash x y, hstates⟩
  | log e f hvw ih => exact ih (h.log _ _ s t hst)

/-! ## Transactions -/

theorem giveUp (h : Backend.Alike R b c) (o o' : Option Log.Operation) (token : Token)
    {ended ended' : Ended ε α} (hended : ended.Alike E ended') {s : σ} {t : τ} (hst : R s t) :
    Both (Ended.Alike E) R (Transaction.giveUp b o token ended s)
      (Transaction.giveUp c o' token ended' t) := by
  unfold Transaction.giveUp
  rcases h.crash (.rollback token) s t hst with ⟨hs, ht⟩ | ⟨x, y, s', t', hs, ht, hcrashed⟩
  · rw [hs, ht]
    refine ⟨hended, ?_⟩
    obtain ⟨answer, answer', s', t', hs, ht, hanswer, hstates⟩ :=
      (h.rollback token s t hst).exists_eq
    simp only [Transaction.rollback, hs, ht]
    cases hanswer with
    | ok u => exact hstates
    | error hpq => exact h.log _ _ s' t' hstates
  · rw [hs, ht]
    exact ⟨.crashed x y, hcrashed⟩

theorem finish (h : Backend.Alike R b c) (o o' : Option Log.Operation) (token : Token)
    {x : Outcome ε α × σ} {y : Outcome ε α × τ} (hxy : Both (Outcome.Alike E) R x y) :
    Both (Ended.Alike E) R (Transaction.finish b o token x) (Transaction.finish c o' token y) := by
  obtain ⟨outcome, s⟩ := x
  obtain ⟨outcome', t⟩ := y
  obtain ⟨houtcome, hst⟩ := hxy
  cases houtcome with
  | value a =>
    simp only [Transaction.finish]
    rcases h.crash (.commit token) s t hst with ⟨hs, ht⟩ | ⟨x, y, s', t', hs, ht, hcrashed⟩
    · rw [hs, ht]
      obtain ⟨answer, answer', s', t', hs, ht, hanswer, hstates⟩ :=
        (h.commit token s t hst).exists_eq
      simp only [hs, ht]
      cases hanswer with
      | ok u => exact ⟨.value a, hstates⟩
      | error hpq => exact ⟨.notCommitted _ _, hstates⟩
    · rw [hs, ht]
      exact ⟨.crashed x y, hcrashed⟩
  | error hef => exact h.giveUp o o' token (.failed hef) hst
  | crash x y => exact h.giveUp o o' token (.crashed x y) (h.log _ _ s t hst)

theorem within (h : Backend.Alike R b c) {v w : Work ε α} (hvw : v.Alike E w)
    (o o' : Option Log.Operation) {s : σ} {t : τ} (hst : R s t) :
    Both (Ended.Alike E) R (Transaction.within b o v s) (Transaction.within c o' w t) := by
  unfold Transaction.within Transaction.around
  rcases h.crash .begin s t hst with ⟨hs, ht⟩ | ⟨x, y, s', t', hs, ht, hcrashed⟩
  · rw [hs, ht]
    obtain ⟨answer, answer', s', t', hs, ht, hanswer, hstates⟩ :=
      (h.begin s t hst).exists_eq
    simp only [hs, ht]
    cases hanswer with
    | ok token => exact h.finish o o' token (h.run hvw o o' token hstates)
    | error hpq => exact ⟨.notBegun _ _, hstates⟩
  · rw [hs, ht]
    exact ⟨.crashed x y, hcrashed⟩

end Backend.Alike
end MailDispatch
