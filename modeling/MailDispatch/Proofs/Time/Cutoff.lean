import MailDispatch.Time.Timestamp

/-! # The exact cutoff

A span is taken from a time within the bounds of the calendar and of the spans that a difference may
have. An entry is compared with what comes out of that. The comparison is the same as one with the
exact difference, which has no bounds: where the difference leaves the calendar nothing lies before
it, nor before the earliest time.
-/
namespace MailDispatch.Time.Timestamp

/-- The time comes before an instant that is counted in nanoseconds, in the calendar or not. A leap
second comes after the whole of its second and before the whole of the next. -/
def Earlier (t : Timestamp) (instant : Int) : Prop :=
  if t.nano < 1000000000 then t.totalNanos < instant else (t.second + 1) * 1000000000 ≤ instant

instance (t : Timestamp) (instant : Int) : Decidable (t.Earlier instant) :=
  inferInstanceAs (Decidable (ite _ _ _))

variable {t now : Timestamp} {s : Span}

/-- Where no leap second is on the other side, the order of times is that of instants. -/
theorem before_iff_earlier {u : Timestamp} (h : u.nano < 1000000000) :
    t.before u = true ↔ t.Earlier u.totalNanos := by
  rw [before_iff, Earlier, totalNanos, totalNanos]
  split <;> omega

theorem totalNanos_le {u : Timestamp} (hu : u.nano < 1000000000) (h : t.before u = false) :
    u.totalNanos ≤ t.totalNanos := by
  rw [← Bool.not_eq_true, before_iff] at h
  rw [totalNanos, totalNanos]
  omega

theorem Earlier.mono {m n : Int} (h : t.Earlier m) (hle : m ≤ n) : t.Earlier n := by
  unfold Earlier at h ⊢
  split at h
  · next hnano =>
    rw [if_pos hnano]
    omega
  · next hnano =>
    rw [if_neg hnano]
    omega

theorem not_earlier_of_le {n : Int} (h : n ≤ earliest.totalNanos) : ¬ t.Earlier n := by
  intro hearlier
  have hstart := hearlier.mono h
  rw [← before_iff_earlier (by decide), not_before_earliest] at hstart
  cases hstart

/-! ## Subtraction -/

theorem minus?_eq_make? (h : now.nano < 1000000000) :
    minus? now s = make? ((now.totalNanos - s.totalNanos) / 1000000000)
      ((now.totalNanos - s.totalNanos) % 1000000000).toNat := by
  unfold minus?
  split
  · next hshort =>
    obtain ⟨hseconds, hnanos⟩ := hshort
    rw [totalNanos, Span.totalNanos, hseconds]
    congr 1 <;> omega
  · rfl

/-- From the earliest time on a difference is in the calendar: it does not come after `now`. -/
theorem minus?_of_le (h : now.nano < 1000000000)
    (hle : earliest.totalNanos ≤ now.totalNanos - s.totalNanos) :
    ∃ c, minus? now s = some c ∧ c.nano < 1000000000 ∧
      c.totalNanos = now.totalNanos - s.totalNanos := by
  have hlast := now.le_last
  have hstart : earliest.totalNanos = firstSecond * 1000000000 + (0 : Nat) := rfl
  have hnow : now.totalNanos = now.second * 1000000000 + now.nano := rfl
  obtain ⟨c, hc⟩ : ∃ c, minus? now s = some c := by
    rw [minus?_eq_make? h, make?, dif_pos]
    · exact ⟨_, rfl⟩
    · refine ⟨by omega, fun hleap => absurd hleap (by omega), by omega, by omega⟩
  have hparts := hc
  rw [minus?_eq_make? h] at hparts
  obtain ⟨hsecond, hnano⟩ := make?_eq_some hparts
  refine ⟨c, hc, by omega, ?_⟩
  rw [totalNanos, hsecond, hnano]
  omega

theorem minus?_of_lt (h : now.nano < 1000000000)
    (hlt : now.totalNanos - s.totalNanos < earliest.totalNanos) : minus? now s = none := by
  have hstart : earliest.totalNanos = firstSecond * 1000000000 + (0 : Nat) := rfl
  rw [minus?_eq_make? h, make?, dif_neg]
  rintro ⟨-, -, hfirst, -⟩
  omega

/-- The spans that a difference may have reach beyond the whole calendar. -/
theorem lt_earliest_of_not_fits (h : now.nano < 1000000000) (hs : fits s = false) :
    now.totalNanos - s.totalNanos < earliest.totalNanos := by
  have hlast := now.le_last
  have hlong : maxSpanMillis * 1000000 < s.totalNanos := by
    rw [fits, decide_eq_false_iff_not] at hs
    exact Nat.lt_of_not_le hs
  have hstart : earliest.totalNanos = firstSecond * 1000000000 + (0 : Nat) := rfl
  have hnow : now.totalNanos = now.second * 1000000000 + now.nano := rfl
  unfold maxSpanMillis at hlong
  unfold firstSecond at hstart
  unfold lastSecond at hlast
  omega

/-! ## The cutoff -/

theorem cutoff_eq_of_lt (h : now.nano < 1000000000)
    (hlt : now.totalNanos - s.totalNanos < earliest.totalNanos) : cutoff now s = earliest := by
  unfold cutoff
  split
  · rw [minus?_of_lt h hlt, Option.getD_none]
  · rfl

theorem cutoff_of_le (h : now.nano < 1000000000)
    (hle : earliest.totalNanos ≤ now.totalNanos - s.totalNanos) :
    (cutoff now s).nano < 1000000000 ∧
      (cutoff now s).totalNanos = now.totalNanos - s.totalNanos := by
  have hfits : fits s = true := by
    rw [← Bool.not_eq_false]
    intro hlong
    have := lt_earliest_of_not_fits h hlong
    omega
  obtain ⟨c, hc, hnano, htotal⟩ := minus?_of_le h hle
  rw [cutoff, if_pos hfits, hc, Option.getD_some]
  exact ⟨hnano, htotal⟩

theorem before_cutoff_iff (h : now.nano < 1000000000) :
    t.before (cutoff now s) = true ↔ t.Earlier (now.totalNanos - s.totalNanos) := by
  obtain hlt | hle := Int.lt_or_le (now.totalNanos - s.totalNanos) earliest.totalNanos
  · rw [cutoff_eq_of_lt h hlt, not_before_earliest]
    exact iff_of_false nofun (not_earlier_of_le (Int.le_of_lt hlt))
  · obtain ⟨hnano, htotal⟩ := cutoff_of_le h hle
    rw [before_iff_earlier hnano, htotal]

end MailDispatch.Time.Timestamp
