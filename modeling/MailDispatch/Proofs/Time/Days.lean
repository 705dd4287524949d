import MailDispatch.Time.Timestamp

/-! # Days and dates

Every day has one date. The years partition the days, since a year begins where the one
before it ends; within a year the months do the same, and the mean length of a year guesses
the year of a day up to one on either side.
-/
namespace MailDispatch.Time.Calendar

/-! ## Years -/

def yearLength (year : Int) : Nat := if isLeap year then 366 else 365

theorem isLeap_iff {year : Int} :
    isLeap year = true ↔ year % 4 = 0 ∧ (year % 100 ≠ 0 ∨ year % 400 = 0) := by
  simp [isLeap]

/-- A year begins where the one before it ends. -/
theorem daysBeforeYear_succ (year : Int) :
    daysBeforeYear (year + 1) = daysBeforeYear year + yearLength year := by
  unfold yearLength daysBeforeYear
  split
  · next h =>
    have hleap := isLeap_iff.mp h
    omega
  · next h =>
    have hcommon := mt isLeap_iff.mpr h
    omega

theorem daysBeforeYear_le {a b : Int} (h : a ≤ b) : daysBeforeYear a ≤ daysBeforeYear b := by
  unfold daysBeforeYear
  omega

/-- The mean length of a year gives the days before a year, up to less than one day on the
one side and less than two on the other. -/
theorem daysBeforeYear_mean (year : Int) :
    146097 * year - 396 ≤ 400 * daysBeforeYear year ∧
      400 * daysBeforeYear year ≤ 146097 * year + 699 := by
  unfold daysBeforeYear
  omega

theorem yearOf_spec (n : Int) :
    daysBeforeYear (yearOf n) ≤ n ∧ n < daysBeforeYear (yearOf n + 1) := by
  have hguess : 146097 * (n * 400 / 146097) ≤ n * 400 ∧
      n * 400 < 146097 * (n * 400 / 146097) + 146097 := by omega
  unfold yearOf
  generalize n * 400 / 146097 = guess at hguess ⊢
  have hafter := (daysBeforeYear_mean (guess + 1 + 1)).1
  have hbefore := (daysBeforeYear_mean (guess - 1)).2
  dsimp only
  split
  · next h => exact ⟨h, by omega⟩
  · next h =>
    split
    · next h' => exact ⟨h', by omega⟩
    · next h' =>
      rw [Int.sub_add_cancel]
      exact ⟨by omega, by omega⟩

theorem yearOf_le {n year : Int} (h : n < daysBeforeYear (year + 1)) : yearOf n ≤ year := by
  refine Int.not_lt.mp fun hlt => ?_
  have hspec := (yearOf_spec n).1
  have hmono := daysBeforeYear_le (show year + 1 ≤ yearOf n by omega)
  omega

theorem le_yearOf {n year : Int} (h : daysBeforeYear year ≤ n) : year ≤ yearOf n := by
  refine Int.not_lt.mp fun hlt => ?_
  have hspec := (yearOf_spec n).2
  have hmono := daysBeforeYear_le (show yearOf n + 1 ≤ year by omega)
  omega

/-! ## Months -/

/-- Dividing a number of days among months finds the month in which they run out. -/
theorem splitMonths_spec {lengths : List Nat} {rest : Nat} (h : rest < lengths.foldr (· + ·) 0)
    (month : Nat) :
    ∃ k r, splitMonths month rest lengths = (month + k, r) ∧ r < lengths.getD k 0 ∧
      (lengths.take k).foldr (· + ·) 0 + r = rest := by
  induction lengths generalizing month rest with
  | nil => exact absurd h (Nat.not_lt_zero _)
  | cons length lengths ih =>
    rw [List.foldr_cons] at h
    unfold splitMonths
    split
    · next hshort => exact ⟨0, rest, rfl, hshort, Nat.zero_add _⟩
    · next hlong =>
      have hless : rest - length < lengths.foldr (· + ·) 0 := by omega
      obtain ⟨k, r, hsplit, hr, hsum⟩ := ih hless (month + 1)
      refine ⟨k + 1, r, ?_, hr, ?_⟩
      · rw [hsplit, Nat.add_assoc, Nat.add_comm 1]
      · rw [List.take_succ_cons, List.foldr_cons]
        omega

theorem sum_monthLengths (year : Int) :
    (monthLengths year).foldr (· + ·) 0 = yearLength year := by
  unfold monthLengths februaryLength yearLength
  split <;> rfl

theorem monthLength_le (year : Int) (month : Nat) : monthLength year month ≤ 31 := by
  unfold monthLength
  split
  · exact Nat.zero_le _
  · have hall : ∀ length ∈ monthLengths year, length ≤ 31 := by
      unfold monthLengths februaryLength
      split <;> decide
    cases hget : (monthLengths year)[month - 1]? with
    | none => simp [List.getD_eq_getElem?_getD, hget]
    | some length =>
      rw [List.getD_eq_getElem?_getD, hget]
      exact hall length (List.mem_of_getElem? hget)

theorem Date.Exists.month_pos {d : Date} (h : d.Exists) : 1 ≤ d.month := by
  refine Nat.pos_of_ne_zero fun hzero => ?_
  have hdays := Nat.le_trans h.1 h.2
  rw [hzero] at hdays
  exact Nat.not_succ_le_zero 0 hdays

theorem Date.Exists.month_le {d : Date} (h : d.Exists) : d.month ≤ 12 := by
  refine Nat.not_lt.mp fun hlt => ?_
  have hdays := Nat.le_trans h.1 h.2
  have hnone : (monthLengths d.year)[d.month - 1]? = none := by
    refine List.getElem?_eq_none ?_
    change 12 ≤ d.month - 1
    omega
  rw [monthLength, if_neg (by omega), List.getD_eq_getElem?_getD, hnone] at hdays
  exact absurd hdays (by decide)

theorem Date.Exists.day_le {d : Date} (h : d.Exists) : d.day ≤ 31 :=
  Nat.le_trans h.2 (monthLength_le _ _)

/-! ## Dates -/

/-- The date of a day exists, and it is the date of no other day. -/
theorem dateOf_spec (n : Int) : (dateOf n).Exists ∧ dayNumber (dateOf n) = n := by
  obtain ⟨hle, hlt⟩ := yearOf_spec n
  rw [daysBeforeYear_succ] at hlt
  have hrest : (n - daysBeforeYear (yearOf n)).toNat <
      (monthLengths (yearOf n)).foldr (· + ·) 0 := by
    rw [sum_monthLengths]
    omega
  obtain ⟨k, r, hsplit, hr, hsum⟩ := splitMonths_spec hrest 1
  have hdate : dateOf n = ⟨yearOf n, 1 + k, r + 1⟩ := by
    simp only [dateOf, hsplit]
  rw [hdate]
  constructor
  · refine ⟨Nat.le_add_left _ _, ?_⟩
    change r + 1 ≤ monthLength (yearOf n) (1 + k)
    rw [monthLength, if_neg (by omega), Nat.add_sub_cancel_left]
    exact hr
  · have hmonths : daysBeforeMonth (yearOf n) (1 + k) + r = (n - daysBeforeYear (yearOf n)).toNat := by
      rw [daysBeforeMonth, Nat.add_sub_cancel_left]
      exact hsum
    simp only [dayNumber]
    omega

theorem year_dateOf (n : Int) : (dateOf n).year = yearOf n := rfl

end MailDispatch.Time.Calendar
