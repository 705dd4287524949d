import MailDispatch.Proofs.Work.Atomic

/-! # Work that keeps an invariant

An invariant of the tables that every call of some work keeps is kept by the work, and
so by every transaction around it.
-/
namespace MailDispatch
open Store Work Mailing

variable {σ ε δ α β : Type}

namespace Work

/-- Every call that work may make is of the given kind. -/
def Asks (C : Call → Prop) : Work ε α → Prop
  | done _ | fail _ | crash _ => True
  | call c next => C c ∧ ∀ r, (next r).Asks C
  | deliver _ next => ∀ r, (next r).Asks C
  | log _ next => next.Asks C

namespace Asks

variable {C D : Call → Prop}

theorem mono (hCD : ∀ c, C c → D c) {w : Work ε α} (h : w.Asks C) : w.Asks D := by
  induction w with
  | done | fail | crash => trivial
  | call c next ih => exact ⟨hCD c h.1, fun r => ih r (h.2 r)⟩
  | deliver m next ih => exact fun r => ih r (h r)
  | log e next ih => exact ih h

theorem bind {w : Work ε α} {f : α → Work ε β} (h : w.Asks C) (hf : ∀ a, (f a).Asks C) :
    (w.bind f).Asks C := by
  induction w with
  | done a => exact hf a
  | fail | crash => trivial
  | call c next ih => exact ⟨h.1, fun r => ih r (h.2 r)⟩
  | deliver m next ih => exact fun r => ih r (h r)
  | log e next ih => exact ih h

theorem mapError {f : ε → δ} {w : Work ε α} (h : w.Asks C) : (w.mapError f).Asks C := by
  induction w with
  | done | fail | crash => trivial
  | call c next ih => exact ⟨h.1, fun r => ih r (h.2 r)⟩
  | deliver m next ih => exact fun r => ih r (h r)
  | log e next ih => exact ih h

theorem ask {c : Call} (h : C c) : (Work.ask c).Asks C := by
  refine ⟨h, ?_⟩
  rintro (p | a) <;> trivial

theorem each {f : α → Work ε Unit} (hf : ∀ a, (f a).Asks C) (as : List α) :
    (Work.each f as).Asks C := by
  induction as with
  | nil => trivial
  | cons a as ih => exact (hf a).bind fun _ => ih

end Asks

def Keeps (P : Tables → Prop) (w : Work ε α) : Prop :=
  ∀ t out, P t → w.Ensures (fun _ u _ => P u) t out

namespace Keeps

variable {P : Tables → Prop}

theorem call {c : Call} {next : Answered c → Work ε α} (hc : ∀ t, P t → P (t.perform c).2)
    (hnext : ∀ r, (next r).Keeps P) : (Work.call c next).Keeps P :=
  fun t out ht => ⟨hnext _ _ out (hc t ht), fun p => hnext (.error p) t out ht, fun _ => ht⟩

theorem deliver {m : Mail} {next : Except String Unit → Work ε α}
    (hnext : ∀ r, (next r).Keeps P) : (Work.deliver m next).Keeps P :=
  fun t out ht => ⟨hnext _ t _ ht, fun e => hnext (.error e) t out ht, fun _ => ht⟩

theorem bind {w : Work ε α} {f : α → Work ε β} (h : w.Keeps P) (hf : ∀ a, (f a).Keeps P) :
    (w.bind f).Keeps P := by
  intro t out ht
  rw [ensures_bind_iff]
  refine (h t out ht).mono ?_
  intro o u out' hu
  cases o with
  | value a => exact hf a u out' hu
  | error e => exact hu
  | crash x => exact hu

end Keeps

theorem Asks.keeps {C : Call → Prop} {P : Tables → Prop}
    (hC : ∀ c, C c → ∀ t, P t → P (t.perform c).2) {w : Work ε α} (h : w.Asks C) :
    w.Keeps P := by
  induction w with
  | done | fail | crash => exact fun _ _ ht => ht
  | call c next ih => exact .call (hC c h.1) fun r => ih r (h.2 r)
  | deliver m next ih => exact .deliver fun r => ih r (h r)
  | log e next ih => exact ih h

theorem asks_true (w : Work ε α) : w.Asks fun _ => True := by
  induction w with
  | done | fail | crash => trivial
  | call c next ih => exact ⟨trivial, ih⟩
  | deliver m next ih => exact ih
  | log e next ih => exact ih

theorem keeps_of_perform {P : Tables → Prop} (hP : ∀ t, P t → ∀ c, P (t.perform c).2)
    (w : Work ε α) : w.Keeps P :=
  w.asks_true.keeps fun c _ t ht => hP t ht c

end Work

/-- No transaction is open, and the committed tables have the property. -/
structure Scene.Rests (P : Tables → Prop) (scene : Scene) : Prop where
  closed : scene.store.opened = none
  holds : P scene.store.committed

theorem Scene.Rests.within {b : Backend σ} {scene : σ → Scene} (hb : b.Faithful scene)
    {P : Tables → Prop} {w : Work ε α} (hw : w.Keeps P) (operation : Option Log.Operation) {s : σ}
    (h : (scene s).Rests P) : (scene (Transaction.within b operation w s).2).Rests P := by
  have hcourse := Transaction.course_within hb operation w s
  generalize (Transaction.within b operation w s).1 = ended at hcourse
  generalize scene (Transaction.within b operation w s).2 = scene' at hcourse ⊢
  cases hcourse with
  | notBegun p => exact h
  | committed ran => exact ⟨rfl, ran.ensured _ (hw _ _ h.holds)⟩
  | notCommitted p ran => exact ⟨rfl, h.holds⟩
  | failed ran => exact ⟨rfl, h.holds⟩
  | crashed ran => exact ⟨rfl, h.holds⟩

end MailDispatch
