import MailDispatch.Proofs.Work.Faithful

/-! # What work ensures

A unit of work ensures something if it holds however the work ends, whatever goes
wrong on the way: each call may meet any problem instead of being performed, each
mail may be refused, and either may crash. The rules follow the shape of work; on a
faithful backend every run ends as they say.
-/
namespace MailDispatch.Work
open Store Mailing

variable {σ ε δ α β : Type}

/-- Holds of the outcome of work, its tables at the end and all the mail that went out by then. -/
abbrev Post (ε α : Type) : Type := Outcome ε α → Tables → List Mail → Prop

def Ensures (Q : Post ε α) : Work ε α → Tables → List Mail → Prop
  | done a, t, out => Q (.value a) t out
  | fail e, t, out => Q (.error e) t out
  | crash x, t, out => Q (.crash x) t out
  | call c next, t, out =>
    (next (t.perform c).1).Ensures Q (t.perform c).2 out ∧
      (∀ p, (next (.error p)).Ensures Q t out) ∧ ∀ x, Q (.crash x) t out
  | deliver m next, t, out =>
    (next (.ok ())).Ensures Q t (out ++ [m]) ∧
      (∀ e, (next (.error e)).Ensures Q t out) ∧ ∀ x, Q (.crash x) t out
  | log _ next, t, out => next.Ensures Q t out

theorem Ensures.mono {P Q : Post ε α} (hPQ : ∀ o t out, P o t out → Q o t out)
    {w : Work ε α} {t : Tables} {out : List Mail} (h : w.Ensures P t out) : w.Ensures Q t out := by
  induction w generalizing t out with
  | done | fail | crash => exact hPQ _ _ _ h
  | call c next ih =>
    obtain ⟨hperformed, hproblem, hcrash⟩ := h
    exact ⟨ih _ hperformed, fun p => ih _ (hproblem p), fun x => hPQ _ _ _ (hcrash x)⟩
  | deliver m next ih =>
    obtain ⟨haccepted, hrefused, hcrash⟩ := h
    exact ⟨ih _ haccepted, fun e => ih _ (hrefused e), fun x => hPQ _ _ _ (hcrash x)⟩
  | log e next ih => exact ih h

theorem ensures_of_forall {Q : Post ε α} (h : ∀ o t out, Q o t out) (w : Work ε α) (t : Tables)
    (out : List Mail) : w.Ensures Q t out := by
  induction w generalizing t out with
  | done | fail | crash => exact h _ _ _
  | call c next ih => exact ⟨ih _ _ _, fun p => ih _ _ _, fun x => h _ _ _⟩
  | deliver m next ih => exact ⟨ih _ _ _, fun e => ih _ _ _, fun x => h _ _ _⟩
  | log e next ih => exact ih _ _

/-- What the first part of composed work has to ensure. -/
def Post.then (f : α → Work ε β) (Q : Post ε β) : Post ε α
  | .value a, t, out => (f a).Ensures Q t out
  | .error e, t, out => Q (.error e) t out
  | .crash x, t, out => Q (.crash x) t out

theorem ensures_bind_iff {Q : Post ε β} {w : Work ε α} {f : α → Work ε β} {t : Tables}
    {out : List Mail} : (w.bind f).Ensures Q t out ↔ w.Ensures (.then f Q) t out := by
  induction w generalizing t out with
  | done | fail | crash => rfl
  | call c next ih => simp only [bind, Ensures, ih]; rfl
  | deliver m next ih => simp only [bind, Ensures, ih]; rfl
  | log e next ih => exact ih

def Outcome.mapError (f : ε → δ) : Outcome ε α → Outcome δ α
  | .value a => .value a
  | .error e => .error (f e)
  | .crash x => .crash x

theorem ensures_mapError_iff {Q : Post δ α} {f : ε → δ} {w : Work ε α} {t : Tables}
    {out : List Mail} :
    (w.mapError f).Ensures Q t out ↔ w.Ensures (fun o => Q (o.mapError f)) t out := by
  induction w generalizing t out with
  | done | fail | crash => rfl
  | call c next ih => simp only [mapError, Ensures, ih]; rfl
  | deliver m next ih => simp only [mapError, Ensures, ih]; rfl
  | log e next ih => exact ih

/-- On a faithful backend work ends in its transaction, with what it ensures. -/
theorem Ensures.run {b : Backend σ} {scene : σ → Scene} (hb : b.Faithful scene)
    (operation : Option Log.Operation) {token : Token} {Q : Post ε α} {w : Work ε α} {s : σ}
    {t : Tables} (ho : (scene s).store.opened = some (token, t))
    (h : w.Ensures Q t (scene s).outbox) :
    ∃ u, (scene (w.run b operation token s).2).store =
        { (scene s).store with opened := some (token, u) } ∧
      Q (w.run b operation token s).1 u (scene (w.run b operation token s).2).outbox := by
  induction w generalizing s t with
  | done | fail | crash => exact ⟨t, by rw [← ho]; rfl, h⟩
  | call c next ih =>
    obtain ⟨hperformed, hproblem, hcrash⟩ := h
    have hcall := Locked.call_of_opened ho c
    -- The call meets a problem, crashes, or is performed on the copy of this transaction.
    rcases hb.call token c s with ⟨p, s', hp, hs⟩ | ⟨x, s', hx, hs⟩ | ⟨s', hr, hs⟩
    · simp only [Work.run, hp]
      rw [← hs] at ho hproblem ⊢
      exact ih _ ho (hproblem p)
    · simp only [Work.run, hx]
      rw [← hs] at ho hcrash ⊢
      exact ⟨t, by rw [← ho], hcrash x⟩
    · rw [hcall] at hr hs
      have hstore : (scene s').store =
          { (scene s).store with opened := some (token, (t.perform c).2) } := by rw [hs]
      have hout : (scene s').outbox = (scene s).outbox := by rw [hs]
      have hnext := ih (t.perform c).1 (s := s') (t := (t.perform c).2) (by rw [hstore])
        (by rw [hout]; exact hperformed)
      rw [hstore] at hnext
      simp only [Work.run, hr]
      cases hanswer : (t.perform c).1 with
      | ok a =>
        rw [hanswer] at hnext
        exact hnext
      | error p =>
        rw [hanswer] at hnext
        exact hnext
  | deliver m next ih =>
    obtain ⟨haccepted, hrefused, hcrash⟩ := h
    rcases hb.deliver m s with ⟨e, s', he, hs⟩ | ⟨x, s', hx, hs⟩ | ⟨s', hr, hs⟩
    · simp only [Work.run, he]
      rw [← hs] at ho hrefused ⊢
      exact ih _ ho (hrefused e)
    · simp only [Work.run, hx]
      rw [← hs] at ho hcrash ⊢
      exact ⟨t, by rw [← ho], hcrash x⟩
    · have hstore : (scene s').store = (scene s).store := by rw [hs]
      have hout : (scene s').outbox = (scene s).outbox ++ [m] := by rw [hs]
      have hnext := ih (.ok ()) (s := s') (t := t) (by rw [hstore, ho])
        (by rw [hout]; exact haccepted)
      rw [hstore] at hnext
      simp only [Work.run, hr]
      exact hnext
  | log e next ih =>
    have hs := hb.log ⟨e, operation⟩ s
    simp only [Work.run]
    rw [← hs] at ho h ⊢
    exact ih ho h

end MailDispatch.Work
