import MailDispatch.Cleanup.Job
import MailDispatch.Proofs.Service.Purging
import MailDispatch.Proofs.Service.Telling
import MailDispatch.Proofs.Work.Traced
import MailDispatch.Proofs.Work.Upshot

/-! # One execution of the cleanup

An execution purges in one transaction. It has done all of it and said so, or it has done nothing,
and then its result is a failure.
-/
namespace MailDispatch
open Store Work Mailing Time Service

variable {σ : Type}

namespace Service

/-! ## What a purge tells -/

/-- An event of the purge, or of the transaction around it. -/
def OfPurge (e : Log.Event) : Prop := e.part = .purge ∨ e.part = .transactions

end Service

namespace Cleanup

/-! ## What an execution leaves -/

def stale (now : Timestamp) (threshold : Time.Span) (e : Entry) : Bool :=
  e.insertTime.before (Timestamp.cutoff now threshold)

/-- The records in which the cleanup or its schedule reports. -/
def reports (records : List Log.Record) : List Log.Record :=
  records.filter fun r => r.event.part = .cleanup ∨ r.event.part = .schedule

theorem reports_append (rs qs : List Log.Record) : reports (rs ++ qs) = reports rs ++ reports qs :=
  List.filter_append _ _

/-- Either everything stale is purged, which is reported with the number of the entries, or nothing
has changed, and the result is a failure. -/
inductive Swept (scene : σ → Scene) (records : σ → List Log.Record) (operation : Log.Operation)
    (isStale : Entry → Bool) (s s' : σ) : Result → Prop where
  | purged
    (tables : (scene s').store.committed = (scene s).store.committed.purged isStale)
    (reported : reports (records s') = reports (records s) ++
      [⟨{ level := .info, part := .cleanup, message := "stale mailing entry cleanup finished"
          fields :=
            [("removed", .whole ((scene s).store.committed.entries.filter isStale).length)] },
        some operation⟩]) :
    Swept scene records operation isStale s s' .success
  | unchanged {x : Result} (failed : x ≠ .success)
    (tables : (scene s').store.committed = (scene s).store.committed)
    (silent : reports (records s') = reports (records s)) :
    Swept scene records operation isStale s s' x

theorem Swept.not_stale {scene : σ → Scene} {records : σ → List Log.Record}
    {operation : Log.Operation} {isStale : Entry → Bool} {s s' : σ}
    (h : Swept scene records operation isStale s s' .success) :
    ∀ e ∈ (scene s').store.committed.entries, isStale e = false := by
  cases h with
  | unchanged failed => exact absurd rfl failed
  | purged tables reported =>
    rw [tables]
    intro e he
    simpa using (List.mem_filter.mp he).2

variable {b : Backend σ} {scene : σ → Scene} {records : σ → List Log.Record}
  {operation : Log.Operation} {now : Timestamp} {threshold : Time.Span} {s : σ}

theorem reports_within (hlog : b.Logs records) (operation : Log.Operation) (now : Timestamp)
    (threshold : Time.Span) (s : σ) :
    reports (records (Transaction.within b (some operation) (purge now threshold) s).2) =
      reports (records s) := by
  have htells : (purge now threshold).Tells OfPurge :=
    tells_purge (fun _ => .inl rfl) (fun _ => .inl rfl) now threshold
  refine (hlog.only_within (fun _ => .inr rfl) (fun _ => .inr rfl) _ htells s).filter_eq ?_
  rintro r (hpart | hpart) <;> simp [hpart]

theorem swept_purgeOnce (hb : b.Faithful scene) (hlog : b.Logs records)
    (sound : (scene s).store.committed.Sound) (operation : Log.Operation) (now : Timestamp)
    (threshold : Time.Span) :
    Swept scene records operation (stale now threshold) s
      (purgeOnce b operation now threshold s).2 (purgeOnce b operation now threshold s).1 := by
  have hupshot := Transaction.upshot_within hb (some operation) (s := s)
    (quietly_purge sound now threshold)
  have hreports := reports_within hlog operation now threshold s
  unfold purgeOnce
  generalize Transaction.within b (some operation) (purge now threshold) s = ran
    at hupshot hreports ⊢
  obtain ⟨ended, s'⟩ := ran
  dsimp only at hupshot hreports ⊢
  generalize hscene : scene s' = scene' at hupshot
  cases hupshot with
  | @committed n t out h =>
    obtain ⟨⟨rfl, rfl⟩, -⟩ := h
    refine .purged ?_ ?_
    · rw [hb.log, hscene]
      rfl
    · rw [hlog.log, reports_append, hreports]
      rfl
  | notBegun p => exact .unchanged nofun (by rw [hscene]) hreports
  | notCommitted p h => exact .unchanged nofun (by rw [hscene]; rfl) hreports
  | failed h => exact .unchanged nofun (by rw [hscene]; rfl) hreports
  | crashed h => exact .unchanged nofun (by rw [hscene]; rfl) hreports

/-- An execution succeeds if and only if its transaction was committed. -/
theorem purgeOnce_success_iff (b : Backend σ) (operation : Log.Operation) (now : Timestamp)
    (threshold : Time.Span) (s : σ) :
    (purgeOnce b operation now threshold s).1 = .success ↔ ∃ token, Query.commit token (.value ()) ∈
      (Transaction.within b.traced (some operation) (purge now threshold) (s, [])).2.2 := by
  obtain ⟨asked, htranscript, htraced⟩ :=
    Transaction.transcript_within b (some operation) (purge now threshold) s []
  rw [htraced, List.nil_append, ← htranscript.value_iff]
  unfold purgeOnce
  dsimp only
  cases (Transaction.within b (some operation) (purge now threshold) s).1 <;> simp [resultOf]

/-- Where its transaction is served, an execution succeeds. -/
theorem purgeOnce_of_served (hb : b.Faithful scene) (sound : (scene s).store.committed.Sound)
    (served : Transaction.Served b scene (some operation) (purge now threshold) s) :
    (purgeOnce b operation now threshold s).1 = .success := by
  have hended := (served.within hb).1
  rw [eval_purge sound now threshold] at hended
  unfold purgeOnce
  dsimp only
  rw [hended]
  rfl

end Cleanup
end MailDispatch
