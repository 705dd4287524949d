import MailDispatch.Time.Calendar
import MailDispatch.Time.Span

/-! # Timestamps

A timestamp is a second, counted from the start of 1970, and a fraction of it in
nanoseconds. The fraction runs over one second only in the last second of a minute:
that is the leap second, which lies between that second and the next one.
-/
namespace MailDispatch.Time

def firstSecond : Int := -8334601228800
def lastSecond : Int := 8210266876799

structure Timestamp where
  second : Int
  nano : Nat
  nano_lt : nano < 2000000000
  leap : 1000000000 ≤ nano → second % 60 = 59
  first_le : firstSecond ≤ second
  le_last : second ≤ lastSecond
  deriving DecidableEq

namespace Timestamp

theorem firstSecond_eq :
    firstSecond = (Calendar.dayNumber ⟨-262143, 1, 1⟩ - Calendar.epoch) * 86400 := by decide

theorem lastSecond_eq :
    lastSecond = (Calendar.dayNumber ⟨262142, 12, 31⟩ - Calendar.epoch) * 86400 + 86399 := by
  decide

def earliest : Timestamp := ⟨firstSecond, 0, by decide, by decide, by decide, by decide⟩

/-- The last timestamp that is not in a leap second. -/
def latest : Timestamp := ⟨lastSecond, 999999999, by decide, by decide, by decide, by decide⟩

instance : Inhabited Timestamp := ⟨earliest⟩

def make? (second : Int) (nano : Nat) : Option Timestamp :=
  if h : nano < 2000000000 ∧ (1000000000 ≤ nano → second % 60 = 59) ∧
      firstSecond ≤ second ∧ second ≤ lastSecond then
    some ⟨second, nano, h.1, h.2.1, h.2.2.1, h.2.2.2⟩
  else none

/-- The order of timestamps: a leap second comes after its second and before the next. -/
def before (a b : Timestamp) : Bool :=
  a.second < b.second || (a.second == b.second && a.nano < b.nano)

/-- Nanoseconds from the start of 1970; a leap second shares them with the next second. -/
def totalNanos (t : Timestamp) : Int := t.second * 1000000000 + t.nano

/-- The longest span that a difference of timestamps may have. -/
def maxSpanMillis : Nat := 9223372036854775807

def fits (s : Span) : Bool := s.totalNanos ≤ maxSpanMillis * 1000000

/-- The time earlier by a span, if the calendar has it. Less than a second does not leave a
leap second for the second that follows it. -/
def minus? (t : Timestamp) (s : Span) : Option Timestamp :=
  if s.seconds = 0 ∧ s.nanos ≤ t.nano then make? t.second (t.nano - s.nanos)
  else
    let n := t.totalNanos - s.totalNanos
    make? (n / 1000000000) (n % 1000000000).toNat

/-- The time before which an entry is stale. Where the span leaves the calendar this is the
earliest time, before which nothing lies. -/
def cutoff (now : Timestamp) (threshold : Span) : Timestamp :=
  if fits threshold then (minus? now threshold).getD earliest else earliest

@[ext] theorem ext' {a b : Timestamp} (hs : a.second = b.second) (hn : a.nano = b.nano) : a = b := by
  cases a; cases b; simp_all

theorem before_iff {a b : Timestamp} :
    a.before b = true ↔ a.second < b.second ∨ a.second = b.second ∧ a.nano < b.nano := by
  simp [before]

theorem before_irrefl (a : Timestamp) : a.before a = false := by
  simp [before]

theorem before_trans {a b c : Timestamp} (h : a.before b = true) (k : b.before c = true) :
    a.before c = true := by
  rw [before_iff] at *
  omega

theorem before_or_before {a b : Timestamp} (h : a ≠ b) : a.before b = true ∨ b.before a = true := by
  have : ¬ (a.second = b.second ∧ a.nano = b.nano) := fun e => h (ext' e.1 e.2)
  rw [before_iff, before_iff]
  omega

theorem not_before_earliest (a : Timestamp) : a.before earliest = false := by
  have h := a.first_le
  rw [← Bool.not_eq_true, before_iff]
  rintro (hs | ⟨_, hn⟩)
  · exact absurd hs (Int.not_lt.mpr h)
  · exact absurd hn (Nat.not_lt_zero _)

theorem make?_eq_some {second : Int} {nano : Nat} {t : Timestamp}
    (h : make? second nano = some t) : t.second = second ∧ t.nano = nano := by
  unfold make? at h
  split at h
  · obtain rfl := Option.some.inj h
    exact ⟨rfl, rfl⟩
  · simp at h

@[simp] theorem make?_parts (t : Timestamp) : make? t.second t.nano = some t := by
  rw [make?, dif_pos ⟨t.nano_lt, t.leap, t.first_le, t.le_last⟩]

end Timestamp
end MailDispatch.Time
