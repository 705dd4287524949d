import MailDispatch.Proofs.Time.Acceptance
import MailDispatch.Proofs.Time.Counting

/-! # The instant of a local time

A local time denotes the instant that the days counted up to its date, its time of day and its
offset make together. A text is read as a timestamp if it spells a local time whose instant the
timestamps reach, and then as that instant, so that equal instants are read alike.
-/
namespace MailDispatch.Time.Reader
open Calendar

/-- The instant of a local time: the seconds since the start of 1970, less those by which clocks
are ahead there, and the nanoseconds. A leap second belongs to the second before it. -/
def LocalTime.Denotes (x : LocalTime) (second : Int) (nano : Nat) : Prop :=
  ∃ day, Falls x.date day ∧
    second = day * 86400 + x.clock.hour * 3600 + x.clock.minute * 60 + min x.clock.second 59 -
      x.ahead * 60 ∧
    nano = if x.clock.second = 60 then x.clock.nano + 1000000000 else x.clock.nano

namespace LocalTime

variable {x : LocalTime} {second : Int} {nano : Nat}

theorem exists_denotes (x : LocalTime) : ∃ second nano, x.Denotes second nano := by
  obtain ⟨day, hday⟩ := exists_falls x.real
  exact ⟨_, _, day, hday, rfl, rfl⟩

theorem Denotes.resolve_eq (hknown : x.Known) (h : x.Denotes second nano) :
    resolve x.date x.clock (x.ahead * 60) =
      match Timestamp.make? second nano with
      | some t => .ok t
      | none => .error .impossible := by
  obtain ⟨day, hday, hsecond, hnano⟩ := h
  obtain ⟨-, hnumber⟩ := hday.dayNumber_eq
  obtain ⟨-, -, hlast, -⟩ := x.timely
  have hreal : ¬ (¬ x.date.Exists ∨ x.date.year < -262143 ∨ 262142 < x.date.year) := by
    obtain ⟨hlow, hhigh⟩ := hknown
    rintro (hnone | hyear)
    · exact hnone x.real
    · omega
  have hnear : ¬ (x.ahead * 60 ≤ -86400 ∨ 86400 ≤ x.ahead * 60) := by
    have hnear := x.near
    omega
  have hseconds : (dayNumber x.date - epoch) * 86400 + x.clock.seconds.1 - x.ahead * 60 = second ∧
      x.clock.seconds.2 = nano := by
    rw [hnumber, hsecond, hnano]
    unfold Clock.seconds
    split
    · next hleap =>
      refine ⟨?_, rfl⟩
      dsimp only
      omega
    · next hplain =>
      refine ⟨?_, rfl⟩
      dsimp only
      omega
  obtain ⟨hmoment, hfine⟩ := hseconds
  subst hmoment hfine
  rw [resolve, if_neg hreal]
  exact if_neg hnear

/-- Every instant within the reach of timestamps is one, the leap seconds included. -/
theorem Denotes.exists_timestamp (h : x.Denotes second nano) (hfirst : firstSecond ≤ second)
    (hlast : second ≤ lastSecond) : ∃ t, Timestamp.make? second nano = some t := by
  obtain ⟨day, -, hsecond, hnano⟩ := h
  obtain ⟨-, -, -, hfine⟩ := x.timely
  have hleap : nano < 2000000000 ∧ (1000000000 ≤ nano → second % 60 = 59) := by
    split at hnano
    · next hsixty =>
      rw [hsixty] at hsecond
      omega
    · omega
  rw [Timestamp.make?, dif_pos ⟨hleap.1, hleap.2, hfirst, hlast⟩]
  exact ⟨_, rfl⟩

end LocalTime

section
variable {x : LocalTime} {w : List Char} (hw : SpellsTime x w) (hknown : x.Known) {second : Int}
  {nano : Nat} (hx : x.Denotes second nano)
include hw hknown hx

/-- A text is read as the instant of the local time that it spells. -/
theorem read_of_denotes (hfirst : firstSecond ≤ second) (hlast : second ≤ lastSecond) :
    ∃ t, read w = .ok t ∧ t.second = second ∧ t.nano = nano := by
  obtain ⟨t, ht⟩ := hx.exists_timestamp hfirst hlast
  refine ⟨t, ?_, Timestamp.make?_eq_some ht⟩
  rw [read_spelled hw hknown, hx.resolve_eq hknown, ht]

theorem read_of_outside (h : second < firstSecond ∨ lastSecond < second) :
    read w = .error .impossible := by
  have hnone : Timestamp.make? second nano = none := by
    apply dif_neg
    rintro ⟨-, -, hfirst, hlast⟩
    omega
  rw [read_spelled hw hknown, hx.resolve_eq hknown, hnone]

/-- What is read of a text depends on its instant alone. -/
theorem read_eq_of_denotes {x' : LocalTime} {w' : List Char} (hw' : SpellsTime x' w')
    (hknown' : x'.Known) (hx' : x'.Denotes second nano) : read w = read w' := by
  rw [read_spelled hw hknown, read_spelled hw' hknown', hx.resolve_eq hknown,
    hx'.resolve_eq hknown']

end

section
variable {x : LocalTime} {w : List Char} (hw : SpellsTime x w)
include hw

theorem exists_error_of_outside {second : Int} {nano : Nat} (hx : x.Denotes second nano)
    (h : second < firstSecond ∨ lastSecond < second) : ∃ p, read w = .error p := by
  by_cases hknown : x.Known
  · exact ⟨_, read_of_outside hw hknown hx h⟩
  · exact ⟨_, read_unknown hw hknown⟩

/-- Whatever is read of a spelling is the instant of its local time. -/
theorem denotes_of_read {t : Timestamp} (h : read w = .ok t) :
    x.Known ∧ x.Denotes t.second t.nano := by
  obtain ⟨second, nano, hx⟩ := x.exists_denotes
  by_cases hknown : x.Known
  · have hresolve := read_spelled hw hknown
    rw [h, hx.resolve_eq hknown] at hresolve
    split at hresolve
    · next u hu =>
      obtain rfl := Except.ok.inj hresolve
      obtain ⟨rfl, rfl⟩ := Timestamp.make?_eq_some hu
      exact ⟨hknown, hx⟩
    · cases hresolve
  · rw [read_unknown hw hknown] at h
    cases h

end

/-- The texts that are read as a timestamp are the spellings of the local times of a known year
with its instant. -/
theorem read_eq_ok_iff {w : List Char} {t : Timestamp} :
    read w = .ok t ↔ ∃ x, SpellsTime x w ∧ x.Known ∧ x.Denotes t.second t.nano := by
  constructor
  · intro h
    obtain ⟨x, hw⟩ := spelled_of_read h
    exact ⟨x, hw, denotes_of_read hw h⟩
  · rintro ⟨x, hw, hknown, hx⟩
    rw [read_spelled hw hknown, hx.resolve_eq hknown, Timestamp.make?_parts]

end MailDispatch.Time.Reader
