import MailDispatch.Proofs.Work.Observed

/-! # What ends work

Work that heeds what goes wrong ends when it is told of a problem that it does not await, and when a
mail is refused. A crash ends it in any case. So a transaction in which such a step was observed
does not end with a value, and not with an error that says anything else.
-/
namespace MailDispatch
open Store Work Mailing

variable {σ ε δ α β : Type} {awaited : Call → Problem → Bool}

/-- Whether a step went wrong. Problems that are awaited are left out, and so is a rollback that
gives a problem, since that is only logged. -/
def Observation.failing (awaited : Call → Problem → Bool) : Observation → Bool
  | .begun (.value _) | .committed _ (.value _) | .called _ _ (.value _) | .delivered _ (.value _) =>
    false
  | .rolledBack _ (.value _) | .rolledBack _ (.error _) | .logged _ => false
  | .called _ c (.error p) => !awaited c p
  | .begun (.error _) | .committed _ (.error _) | .delivered _ (.error _) => true
  | .begun (.crash _) | .committed _ (.crash _) | .rolledBack _ (.crash _) | .called _ _ (.crash _)
  | .delivered _ (.crash _) => true

/-- A crash, or an error of a certain kind. -/
def Work.Outcome.Inside (inside : ε → Prop) : Outcome ε α → Prop
  | .value _ => False
  | .error e => inside e
  | .crash _ => True

def Ended.Inside (inside : ε → Prop) : Ended ε α → Prop
  | .value _ => False
  | .failed e => inside e
  | .crashed _ | .notBegun _ | .notCommitted _ => True

/-! ## Backends that keep what was observed -/

/-- What was observed is what a backend was asked for, in its order, with the answers. -/
structure Backend.Sees (b : Backend σ) (seen : σ → List Observation) : Prop where
  begin : ∀ s, seen (b.begin s).2 = seen s ++ [.begun (Query.answered (b.begin s).1)]
  commit : ∀ token s,
    seen (b.commit token s).2 = seen s ++ [.committed token (Query.answered (b.commit token s).1)]
  rollback : ∀ token s, seen (b.rollback token s).2 =
    seen s ++ [.rolledBack token (Query.answered (b.rollback token s).1)]
  call : ∀ token c s, seen (b.call token c s).2 = seen s ++ [.called token c (b.call token c s).1]
  deliver : ∀ m s, seen (b.deliver m s).2 = seen s ++ [.delivered m (b.deliver m s).1]
  log : ∀ r s, seen (b.log r s) = seen s ++ [.logged r]
  crash : ∀ {stage s x s'}, b.crash stage s = some (x, s') → seen s' = seen s ++ [stage.broken x]

theorem Backend.observed_sees (b : Backend σ) : b.observed.Sees Prod.snd where
  begin _ := rfl
  commit _ _ := rfl
  rollback _ _ := rfl
  call _ _ _ := rfl
  deliver _ _ := rfl
  log _ _ := rfl
  crash h := by
    obtain ⟨⟨x, t⟩, -, hcrashed⟩ := Option.map_eq_some_iff.mp h
    obtain ⟨rfl, rfl⟩ := Prod.mk.inj hcrashed
    rfl

/-- If a step goes wrong while something runs, then that ends in the given way. -/
def Heeded (seen : σ → List Observation) (awaited : Call → Problem → Bool) (inside : β → Prop)
    (s : σ) (ran : β × σ) : Prop :=
  ∃ added, seen ran.2 = seen s ++ added ∧ ∀ x ∈ added, x.failing awaited = true → inside ran.1

namespace Heeded

variable {seen : σ → List Observation} {inside : β → Prop} {s t : σ} {ran : β × σ}

theorem nil (x : β) (s : σ) : Heeded seen awaited inside s (x, s) :=
  ⟨[], (List.append_nil _).symm, fun _ hx => nomatch hx⟩

/-- It has ended in that way. -/
theorem ended {x : Observation} (adds : seen ran.2 = seen s ++ [x]) (h : inside ran.1) :
    Heeded seen awaited inside s ran :=
  ⟨[x], adds, fun _ _ _ => h⟩

/-- One thing after the other. -/
theorem trans {γ : Type} {later : γ → Prop} {after : γ × σ} (h : Heeded seen awaited inside s ran)
    (hafter : Heeded seen awaited later ran.2 after) (hlater : inside ran.1 → later after.1) :
    Heeded seen awaited later s after := by
  obtain ⟨added, hadded, hinside⟩ := h
  obtain ⟨more, hmore, hinside'⟩ := hafter
  refine ⟨added ++ more, by rw [hmore, hadded, List.append_assoc], fun x hx hfailing => ?_⟩
  rcases List.mem_append.mp hx with hx | hx
  · exact hlater (hinside x hx hfailing)
  · exact hinside' x hx hfailing

theorem asked {x : Observation} (adds : seen t = seen s ++ [x]) (fine : x.failing awaited = false)
    (h : Heeded seen awaited inside t ran) : Heeded seen awaited inside s ran := by
  have first : Heeded seen awaited (fun _ : Unit => False) s ((), t) := by
    refine ⟨[x], adds, fun y hy hfailing => ?_⟩
    rw [List.mem_singleton.mp hy, fine] at hfailing
    exact Bool.false_ne_true hfailing
  exact first.trans h False.elim

theorem mono {γ : Type} {later : γ → Prop} {y : γ} (h : Heeded seen awaited inside s ran)
    (hlater : inside ran.1 → later y) : Heeded seen awaited later s (y, ran.2) :=
  h.trans (.nil y ran.2) hlater

end Heeded

/-! ## Work -/

namespace Work

/-- A problem that is not awaited ends the work with an error of a certain kind, and so does the
refusal of a mail. -/
def Heeds (awaited : Call → Problem → Bool) (inside : ε → Prop) : Work ε α → Prop
  | done _ | fail _ | crash _ => True
  | call c next =>
    (∀ p, awaited c p = false → ∃ e, next (.error p) = fail e ∧ inside e) ∧
      ∀ r, (next r).Heeds awaited inside
  | deliver _ next =>
    (∀ text, ∃ e, next (.error text) = fail e ∧ inside e) ∧ ∀ r, (next r).Heeds awaited inside
  | log _ next => next.Heeds awaited inside

namespace Heeds

variable {inside : ε → Prop} {later : δ → Prop}

theorem bind {w : Work ε α} {f : α → Work ε β} (h : w.Heeds awaited inside)
    (hf : ∀ a, (f a).Heeds awaited inside) : (w.bind f).Heeds awaited inside := by
  induction w with
  | done a => exact hf a
  | fail | crash => trivial
  | call c next ih =>
    refine ⟨fun p hp => ?_, fun r => ih r (h.2 r)⟩
    obtain ⟨e, hfail, he⟩ := h.1 p hp
    exact ⟨e, congrArg (·.bind f) hfail, he⟩
  | deliver m next ih =>
    refine ⟨fun text => ?_, fun r => ih r (h.2 r)⟩
    obtain ⟨e, hfail, he⟩ := h.1 text
    exact ⟨e, congrArg (·.bind f) hfail, he⟩
  | log e next ih => exact ih h

theorem mapError {w : Work ε α} {f : ε → δ} (h : w.Heeds awaited inside)
    (hf : ∀ e, inside e → later (f e)) : (w.mapError f).Heeds awaited later := by
  induction w with
  | done | fail | crash => trivial
  | call c next ih =>
    refine ⟨fun p hp => ?_, fun r => ih r (h.2 r)⟩
    obtain ⟨e, hfail, he⟩ := h.1 p hp
    exact ⟨f e, congrArg (·.mapError f) hfail, hf e he⟩
  | deliver m next ih =>
    refine ⟨fun text => ?_, fun r => ih r (h.2 r)⟩
    obtain ⟨e, hfail, he⟩ := h.1 text
    exact ⟨f e, congrArg (·.mapError f) hfail, hf e he⟩
  | log e next ih => exact ih h

theorem ask (c : Call) : (Work.ask c).Heeds awaited fun _ => True := by
  refine ⟨fun p _ => ⟨p, rfl, trivial⟩, ?_⟩
  rintro (p | a) <;> trivial

theorem each {f : α → Work ε Unit} (hf : ∀ a, (f a).Heeds awaited inside) (as : List α) :
    (Work.each f as).Heeds awaited inside := by
  induction as with
  | nil => trivial
  | cons a as ih => exact (hf a).bind fun _ => ih

/-- What goes wrong while work runs ends it, and with the kind of error that it should. -/
theorem run {b : Backend σ} {seen : σ → List Observation} (hb : b.Sees seen)
    (operation : Option Log.Operation) (token : Token) {w : Work ε α}
    (h : w.Heeds awaited inside) (s : σ) :
    Heeded seen awaited (Outcome.Inside inside) s (w.run b operation token s) := by
  induction w generalizing s with
  | done | fail | crash => exact .nil _ s
  | call c next ih =>
    have adds := hb.call token c s
    simp only [Work.run]
    generalize b.call token c s = called at adds ⊢
    rcases called with ⟨a | p | x, t⟩
    · exact .asked adds rfl (ih (.ok a) (h.2 _) t)
    · cases hp : awaited c p with
      | true =>
        have fine : (Observation.called token c (.error p)).failing awaited = false := by
          rw [Observation.failing, hp, Bool.not_true]
        exact .asked adds fine (ih (.error p) (h.2 _) t)
      | false =>
        obtain ⟨e, hfail, he⟩ := h.1 p hp
        simp only [hfail, Work.run]
        exact .ended adds he
    · exact .ended adds trivial
  | deliver m next ih =>
    have adds := hb.deliver m s
    simp only [Work.run]
    generalize b.deliver m s = delivered at adds ⊢
    rcases delivered with ⟨u | text | x, t⟩
    · exact .asked adds rfl (ih (.ok u) (h.2 _) t)
    · obtain ⟨e, hfail, he⟩ := h.1 text
      simp only [hfail, Work.run]
      exact .ended adds he
    · exact .ended adds trivial
  | log e next ih => exact .asked (hb.log _ s) rfl (ih h _)

end Heeds
end Work

/-! ## Transactions -/

/-- To give up does not make up for anything. -/
theorem Ended.Inside.giveUp {inside : ε → Prop} {ended : Ended ε α} (h : ended.Inside inside)
    (b : Backend σ) (operation : Option Log.Operation) (token : Token) (s : σ) :
    (Transaction.giveUp b operation token ended s).1.Inside inside := by
  rcases hgiven : Transaction.giveUp b operation token ended s with ⟨given, t⟩
  rcases Transaction.ended_of_giveUp hgiven with rfl | ⟨x, rfl⟩
  · exact h
  · trivial

namespace Backend.Sees

variable {b : Backend σ} {seen : σ → List Observation} (hb : b.Sees seen) {inside : ε → Prop}
  (operation : Option Log.Operation)
include hb

theorem giveUp (token : Token) (ended : Ended ε α) (s : σ) :
    Heeded seen awaited (Ended.Inside inside) s
      (Transaction.giveUp b operation token ended s) := by
  unfold Transaction.giveUp
  cases hcrash : b.crash (.rollback token) s with
  | some crashed => exact .ended (hb.crash hcrash) trivial
  | none =>
    have adds := hb.rollback token s
    simp only [Transaction.rollback]
    generalize b.rollback token s = rolled at adds ⊢
    rcases rolled with ⟨p | u, t⟩
    · refine .asked adds rfl ?_
      exact .asked (hb.log _ t) rfl (.nil _ _)
    · exact .asked adds rfl (.nil _ _)

theorem finish (token : Token) {s : σ} {ran : Outcome ε α × σ}
    (h : Heeded seen awaited (Outcome.Inside inside) s ran) :
    Heeded seen awaited (Ended.Inside inside) s (Transaction.finish b operation token ran) := by
  rcases ran with ⟨a | e | x, t⟩
  · refine h.trans ?_ False.elim
    simp only [Transaction.finish]
    cases hcrash : b.crash (.commit token) t with
    | some crashed => exact .ended (hb.crash hcrash) trivial
    | none =>
      have adds := hb.commit token t
      dsimp only
      generalize b.commit token t = committed at adds ⊢
      rcases committed with ⟨p | u, t'⟩
      · exact .ended adds trivial
      · exact .asked adds rfl (.nil _ _)
  · refine h.trans (hb.giveUp operation token (.failed e) t) fun he => ?_
    have failed : (Ended.failed e : Ended ε α).Inside inside := he
    exact failed.giveUp b operation token t
  · have logged := hb.log ⟨Transaction.crashEvent x, operation⟩ t
    refine h.trans (.asked logged rfl
      (hb.giveUp operation token (.crashed x) _)) fun _ => ?_
    have crashed : (Ended.crashed x : Ended ε α).Inside inside := trivial
    exact crashed.giveUp b operation token _

/-- Whatever goes wrong in a transaction, it does not end with a value then. -/
theorem within {w : Work ε α} (h : w.Heeds awaited inside) (s : σ) :
    Heeded seen awaited (Ended.Inside inside) s (Transaction.within b operation w s) := by
  unfold Transaction.within Transaction.around
  cases hcrash : b.crash .begin s with
  | some crashed => exact .ended (hb.crash hcrash) trivial
  | none =>
    have adds := hb.begin s
    dsimp only
    generalize b.begin s = begun at adds ⊢
    rcases begun with ⟨p | token, t⟩
    · exact .ended adds trivial
    · exact .asked adds rfl
        (hb.finish operation token (h.run hb operation token t))

end Backend.Sees

end MailDispatch
