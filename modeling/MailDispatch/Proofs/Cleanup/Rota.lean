import MailDispatch.Cleanup.Schedule
import MailDispatch.Proofs.Shutdown.Times

/-! # The times of a periodic schedule

When something is executed depends on the time at which the schedule begins, on its period
and on how long each execution takes. An execution starts when it is due and the one before
it has ended; what comes of it plays no part.
-/
namespace MailDispatch

theorem Time.Span.isZero_eq_false_iff {s : Span} : s.isZero = false ↔ 0 < s.totalNanos := by
  rw [isZero, totalNanos, Bool.and_eq_false_iff, beq_eq_false_iff_ne, beq_eq_false_iff_ne]
  omega

namespace Cleanup

/-- Where the clock can show the time of the first execution, a schedule begins. -/
theorem begin_of_isSome {now : Nat} {period : Time.Span} (positive : 0 < period.totalNanos)
    (representable : (Shutdown.later? now period).isSome = true) :
    begin now period = .idle (now + period.totalNanos) := by
  rw [begin, Time.Span.isZero_eq_false_iff.mpr positive,
    Shutdown.later?_of_isSome representable]
  rfl

structure Rota where
  begins : Nat
  period : Nat
  work : Nat → Nat

/-- When an execution is due, and from when on nothing before it is in progress. -/
structure Slot where
  due : Nat
  free : Nat

def Slot.start (s : Slot) : Nat := max s.due s.free

namespace Rota

/-- The executions in their order, the first one after a whole period. -/
def slot (r : Rota) : Nat → Slot
  | 0 => ⟨r.begins + r.period, r.begins⟩
  | k + 1 => ⟨nextDue r.period (r.slot k).due (r.slot k).start, (r.slot k).start + r.work k⟩

def due (r : Rota) (k : Nat) : Nat := (r.slot k).due

def free (r : Rota) (k : Nat) : Nat := (r.slot k).free

def start (r : Rota) (k : Nat) : Nat := (r.slot k).start

def ends (r : Rota) (k : Nat) : Nat := r.start k + r.work k

variable (r : Rota) (k : Nat)

theorem due_le_start : r.due k ≤ r.start k := Nat.le_max_left _ _

theorem free_le_start : r.free k ≤ r.start k := Nat.le_max_right _ _

theorem start_le_ends : r.start k ≤ r.ends k := Nat.le_add_right _ _

theorem free_zero : r.free 0 = r.begins := rfl

theorem free_succ : r.free (k + 1) = r.ends k := rfl

theorem due_succ : r.due (k + 1) = nextDue r.period (r.due k) (r.start k) := rfl

theorem start_zero : r.start 0 = r.begins + r.period := Nat.max_eq_left (Nat.le_add_right _ _)

/-- An execution starts at the later of the time at which it is due and the end of the one before. -/
theorem start_succ : r.start (k + 1) = max (r.due (k + 1)) (r.ends k) := rfl

theorem ends_le_start : r.ends k ≤ r.start (k + 1) := r.free_le_start (k + 1)

theorem start_mono {j k : Nat} (h : j ≤ k) : r.start j ≤ r.start k := by
  induction h with
  | refl => exact Nat.le_refl _
  | @step k _ ih => exact Nat.le_trans ih (Nat.le_trans (r.start_le_ends k) (r.ends_le_start k))

theorem begins_le_start : r.begins ≤ r.start k := by
  have hfirst : r.begins ≤ r.start 0 := by
    rw [start_zero]
    exact Nat.le_add_right _ _
  exact Nat.le_trans hfirst (r.start_mono (Nat.zero_le k))

/-- However long the executions take, they do not start in a burst afterwards. -/
theorem pace : r.start k + r.period ≤ r.start (k + 1) + tolerance :=
  Nat.le_trans (le_nextDue (r.due_le_start k)) (Nat.add_le_add_right (r.due_le_start (k + 1)) _)

/-- Executions that take no longer than a period all start in time. -/
theorem start_eq {r : Rota} (h : ∀ k, r.work k ≤ r.period) (k : Nat) :
    r.start k = r.begins + (k + 1) * r.period ∧ r.due k = r.start k := by
  induction k with
  | zero => simp [start_zero, due, slot]
  | succ k ih =>
    obtain ⟨hstart, hdue⟩ := ih
    have hnext : r.due (k + 1) = r.start k + r.period := by
      rw [due_succ, hdue, nextDue, if_neg (by omega)]
    have hbusy : r.ends k ≤ r.due (k + 1) := by
      rw [hnext]
      exact Nat.add_le_add_left (h k) _
    have hprompt : r.start (k + 1) = r.due (k + 1) := Nat.max_eq_left hbusy
    refine ⟨?_, hprompt.symm⟩
    rw [hprompt, hnext, hstart, Nat.succ_mul (k + 1)]
    omega

/-- An execution is planned by what was executed before it. -/
theorem slot_congr {r q : Rota} (hbegins : q.begins = r.begins) (hperiod : q.period = r.period)
    {k : Nat} (h : ∀ i < k, q.work i = r.work i) : q.slot k = r.slot k := by
  induction k with
  | zero => simp only [slot, hbegins, hperiod]
  | succ k ih =>
    have hbefore := ih fun i hi => h i (Nat.lt_succ_of_lt hi)
    simp only [slot, hbefore, hperiod, h k (Nat.lt_succ_self k)]

/-- When an execution starts does not depend on it, nor on any after it. -/
theorem start_congr {r q : Rota} (hbegins : q.begins = r.begins) (hperiod : q.period = r.period)
    {k : Nat} (h : ∀ i < k, q.work i = r.work i) : q.start k = r.start k :=
  congrArg Slot.start (slot_congr hbegins hperiod h)

end Rota
end Cleanup
end MailDispatch
