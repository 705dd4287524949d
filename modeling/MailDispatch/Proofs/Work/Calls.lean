import MailDispatch.Proofs.Work.Calm
import MailDispatch.Proofs.Work.Traced

/-! # The calls of work that nothing disturbs

While nothing goes wrong, which calls work makes is settled by the tables that it starts from, and
these are the calls that a watched backend is asked for, in their order.
-/
namespace MailDispatch
open Store Work Mailing

variable {σ ε δ α β : Type}

namespace Work

/-- The calls of work, one after the other, if every call is performed and every mail accepted. -/
def calls : Work ε α → Tables → List Call
  | done _, _ | fail _, _ | crash _, _ => []
  | call c next, t => c :: (next (t.perform c).1).calls (t.perform c).2
  | deliver _ next, t => (next (.ok ())).calls t
  | log _ next, t => next.calls t

theorem calls_bind {w : Work ε α} {f : α → Work ε β} {t u : Tables} {out out' : List Mail} {a : α}
    (h : w.eval t out = (.value a, u, out')) :
    (w.bind f).calls t = w.calls t ++ (f a).calls u := by
  induction w generalizing t out with
  | done b =>
    obtain ⟨hvalue, hrest⟩ := Prod.mk.inj h
    obtain ⟨rfl, -⟩ := Prod.mk.inj hrest
    obtain rfl := Outcome.value.inj hvalue
    rfl
  | fail e | crash x => cases (Prod.mk.inj h).1
  | call c next ih => exact congrArg (c :: ·) (ih _ h)
  | deliver m next ih => exact ih _ h
  | log e next ih => exact ih h

theorem calls_mapError (f : ε → δ) (w : Work ε α) (t : Tables) :
    (w.mapError f).calls t = w.calls t := by
  induction w generalizing t with
  | done | fail | crash => rfl
  | call c next ih => exact congrArg (c :: ·) (ih _ _)
  | deliver m next ih => exact ih _ _
  | log e next ih => exact ih _

theorem calls_ask (c : Call) (t : Tables) : (ask c).calls t = [c] := by
  simp only [ask, calls]
  cases (t.perform c).1 <;> rfl

end Work

def Query.call? : Query → Option Call
  | .call _ c => some c
  | .begin _ | .commit _ _ | .rollback _ _ | .deliver _ | .log _ => none

/-- To end a transaction the store is not asked for anything. -/
theorem Transaction.Closing.filterMap_call? {operation : Option Log.Operation} {token : Token}
    {o : Outcome ε α} {closing : List Query} {ended : Ended ε α}
    (h : Closing operation token o closing ended) : closing.filterMap Query.call? = [] := by
  have hresigned : ∀ {going given : Ended ε α} {asked : List Query},
      Resigning operation token going asked given → asked.filterMap Query.call? = [] := by
    intro going given asked h
    cases h with
    | done | failed | crashed => rfl
  cases h with
  | committed | notCommitted | commitCrashed => rfl
  | failed e resigned => exact hresigned resigned
  | crashed c resigned => exact (List.filterMap_cons_none rfl).trans (hresigned resigned)

/-- Work that is served asks a watched backend for the calls that are known beforehand. -/
theorem Work.Served.exists_asked {b : Backend σ} {scene : σ → Scene}
    {operation : Option Log.Operation} {token : Token} (hb : b.Faithful scene) {w : Work ε α}
    {s : σ} {t : Tables} (served : w.Served b scene operation token s)
    (ho : (scene s).store.opened = some (token, t)) (before : List Query) :
    ∃ asked, w.run b.traced operation token (s, before) =
        ((w.run b operation token s).1, (w.run b operation token s).2, before ++ asked) ∧
      asked.filterMap Query.call? = w.calls t := by
  induction w generalizing s t before with
  | done | fail | crash => exact ⟨[], by simp [Work.run], rfl⟩
  | call c next ih =>
    obtain ⟨s', hcall, hscene, hserved⟩ := served
    rw [Locked.call_of_opened ho] at hcall hscene hserved
    have hopened : (scene s').store.opened = some (token, (t.perform c).2) := by rw [hscene]
    obtain ⟨asked, hran, hcalls⟩ :=
      ih (t.perform c).1 hserved hopened (before ++ [.call token c])
    have htraced : b.traced.call token c (s, before) =
        ((b.call token c s).1, (b.call token c s).2, before ++ [.call token c]) := rfl
    refine ⟨.call token c :: asked, ?_, congrArg (c :: ·) hcalls⟩
    simp only [Work.run, htraced, hcall]
    rw [List.append_assoc, List.singleton_append] at hran
    cases hanswer : (t.perform c).1 with
    | ok a =>
      rw [hanswer] at hran
      exact hran
    | error p =>
      rw [hanswer] at hran
      exact hran
  | deliver m next ih =>
    obtain ⟨s', hdeliver, hscene, hserved⟩ := served
    obtain ⟨asked, hran, hcalls⟩ :=
      ih (.ok ()) hserved (by rw [hscene, ho]) (before ++ [.deliver m])
    have htraced : b.traced.deliver m (s, before) =
        ((b.deliver m s).1, (b.deliver m s).2, before ++ [.deliver m]) := rfl
    refine ⟨.deliver m :: asked, ?_, hcalls⟩
    rw [List.append_assoc, List.singleton_append] at hran
    simp only [Work.run, htraced, hdeliver]
    exact hran
  | log e next ih =>
    have hscene := hb.log ⟨e, operation⟩ s
    obtain ⟨asked, hran, hcalls⟩ :=
      ih served (by rw [hscene, ho]) (before ++ [.log ⟨e, operation⟩])
    rw [List.append_assoc, List.singleton_append] at hran
    exact ⟨.log ⟨e, operation⟩ :: asked, hran, hcalls⟩

end MailDispatch
