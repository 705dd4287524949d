import Mathlib.Data.Int.Init
import MailDispatch.Proofs.Time.Days

/-! # Days counted one by one

The day after the last of a month is the first of the next month, and the day after the last of a
year is the first of January. From the first of January 1970 this counts every date there is, in
both directions, and each to one number, which is the one that the calendar computes.
-/
namespace MailDispatch.Time.Calendar

/-- The day after a date. -/
def Date.next (d : Date) : Date :=
  if d.day < monthLength d.year d.month then { d with day := d.day + 1 }
  else if d.month < 12 then ⟨d.year, d.month + 1, 1⟩
  else ⟨d.year + 1, 1, 1⟩

/-- A date falls so many days after the first of January 1970, or before it. -/
inductive Falls : Date → Int → Prop where
  | start : Falls ⟨1970, 1, 1⟩ 0
  | later {d : Date} {n : Int} (h : Falls d n) : Falls d.next (n + 1)
  | earlier {d : Date} {n : Int} (hd : d.Exists) (h : Falls d.next (n + 1)) : Falls d n

/-! ## Within a year -/

theorem daysBeforeMonth_succ (year : Int) {month : Nat} (h : 1 ≤ month) :
    daysBeforeMonth year (month + 1) = daysBeforeMonth year month + monthLength year month := by
  obtain ⟨k, rfl⟩ := Nat.exists_eq_add_of_le' h
  have hsum : ∀ (l : List Nat) (n : Nat), l.foldr (· + ·) n = l.foldr (· + ·) 0 + n := by
    intro l n
    induction l with
    | nil => exact (Nat.zero_add n).symm
    | cons a l ih => rw [List.foldr_cons, List.foldr_cons, ih, Nat.add_assoc]
  rw [daysBeforeMonth, daysBeforeMonth, monthLength, if_neg (Nat.succ_ne_zero k),
    Nat.add_sub_cancel, Nat.add_sub_cancel, List.take_add_one, List.foldr_append, hsum,
    List.getD_eq_getElem?_getD]
  cases (monthLengths year)[k]? <;> rfl

theorem daysBeforeMonth_le (year : Int) {m n : Nat} (hm : 1 ≤ m) (h : m ≤ n) :
    daysBeforeMonth year m ≤ daysBeforeMonth year n := by
  induction h with
  | refl => exact Nat.le_refl _
  | @step n hn ih =>
    rw [daysBeforeMonth_succ year (Nat.le_trans hm hn)]
    exact Nat.le_add_right_of_le ih

/-- The thirteenth month would begin behind the last day of the year. -/
theorem daysBeforeMonth_thirteen (year : Int) : daysBeforeMonth year 13 = yearLength year :=
  sum_monthLengths year

theorem monthLength_pos {year : Int} {month : Nat} (h : 1 ≤ month) (h' : month ≤ 12) :
    1 ≤ monthLength year month := by
  have hall : ∀ length ∈ monthLengths year, 1 ≤ length := by
    unfold monthLengths februaryLength
    split <;> decide
  have hin : month - 1 < (monthLengths year).length := by
    change month - 1 < 12
    omega
  rw [monthLength, if_neg (by omega), List.getD_eq_getElem?_getD, List.getElem?_eq_getElem hin]
  exact hall _ (List.getElem_mem hin)

/-- A date lies within its month, and its month within the year. -/
theorem Date.Exists.within {d : Date} (h : d.Exists) :
    daysBeforeMonth d.year d.month + (d.day - 1) < daysBeforeMonth d.year (d.month + 1) ∧
      daysBeforeMonth d.year (d.month + 1) ≤ yearLength d.year := by
  have hday := h.1
  have hlength := h.2
  have hlast := daysBeforeMonth_le d.year (Nat.le_add_left 1 d.month)
    (Nat.succ_le_succ h.month_le)
  rw [daysBeforeMonth_thirteen] at hlast
  refine ⟨?_, hlast⟩
  rw [daysBeforeMonth_succ d.year h.month_pos]
  omega

/-! ## The next day -/

theorem dayNumber_next {d : Date} (h : d.Exists) :
    d.next.Exists ∧ dayNumber d.next = dayNumber d + 1 := by
  have hday := h.1
  have hlength := h.2
  have hmonth := daysBeforeMonth_succ d.year h.month_pos
  unfold Date.next
  split
  · next hwithin =>
    refine ⟨⟨Nat.le_add_left 1 d.day, hwithin⟩, ?_⟩
    simp only [dayNumber]
    omega
  · next hlast =>
    split
    · next hbefore =>
      refine ⟨⟨Nat.le_refl 1, monthLength_pos (Nat.le_add_left 1 _) hbefore⟩, ?_⟩
      simp only [dayNumber]
      omega
    · next hdecember =>
      have htwelve : d.month = 12 := Nat.le_antisymm h.month_le (Nat.not_lt.mp hdecember)
      have hyear := daysBeforeYear_succ d.year
      have hwhole := daysBeforeMonth_thirteen d.year
      have hfirst : daysBeforeMonth (d.year + 1) 1 = 0 := rfl
      have hjanuary : 1 ≤ monthLength (d.year + 1) 1 := monthLength_pos (Nat.le_refl 1) (by omega)
      simp only [htwelve, Nat.reduceAdd] at hmonth hlength hlast
      refine ⟨⟨Nat.le_refl 1, hjanuary⟩, ?_⟩
      simp only [dayNumber, htwelve]
      omega

/-- No two dates have the same number. -/
theorem dayNumber_inj {d e : Date} (hd : d.Exists) (he : e.Exists)
    (h : dayNumber d = dayNumber e) : d = e := by
  have hyear : ∀ {f : Date}, f.Exists → yearOf (dayNumber f) = f.year := by
    intro f hf
    obtain ⟨hwithin, hlast⟩ := hf.within
    have hday := hf.1
    have hnext := daysBeforeYear_succ f.year
    refine Int.le_antisymm (yearOf_le ?_) (le_yearOf ?_)
    · simp only [dayNumber]
      omega
    · simp only [dayNumber]
      omega
  have hsame : d.year = e.year := by rw [← hyear hd, ← hyear he, h]
  obtain ⟨hdwithin, -⟩ := hd.within
  obtain ⟨hewithin, -⟩ := he.within
  have hdday := hd.1
  have heday := he.1
  rw [hsame] at hdwithin
  simp only [dayNumber, hsame] at h
  have hmonth : d.month = e.month := by
    rcases Nat.lt_trichotomy d.month e.month with hlt | heq | hgt
    · have hbefore := daysBeforeMonth_le e.year (Nat.le_add_left 1 d.month) hlt
      omega
    · exact heq
    · have hbefore := daysBeforeMonth_le e.year (Nat.le_add_left 1 e.month) hgt
      omega
  rw [hmonth] at h
  have hday : d.day = e.day := by omega
  cases d
  cases e
  simp_all

theorem dateOf_succ (n : Int) : dateOf (n + 1) = (dateOf n).next := by
  obtain ⟨hexists, hnumber⟩ := dateOf_spec n
  obtain ⟨hexists', hnumber'⟩ := dateOf_spec (n + 1)
  obtain ⟨hnext, hplus⟩ := dayNumber_next hexists
  apply dayNumber_inj hexists' hnext
  rw [hnumber', hplus, hnumber]

/-! ## Counting -/

theorem Falls.dayNumber_eq {d : Date} {n : Int} (h : Falls d n) :
    d.Exists ∧ dayNumber d = n + epoch := by
  induction h with
  | start => decide
  | later _ ih =>
    obtain ⟨hexists, hnumber⟩ := ih
    obtain ⟨hnext, hplus⟩ := dayNumber_next hexists
    exact ⟨hnext, by omega⟩
  | earlier hd _ ih =>
    obtain ⟨-, hplus⟩ := dayNumber_next hd
    exact ⟨hd, by omega⟩

theorem falls_dateOf (n : Int) : Falls (dateOf (n + epoch)) n := by
  induction n using Int.induction_on with
  | zero => exact Falls.start
  | succ n ih =>
    rw [Int.add_right_comm, dateOf_succ]
    exact ih.later
  | pred n ih =>
    apply Falls.earlier (dateOf_spec _).1
    rw [← dateOf_succ, Int.add_right_comm, Int.sub_add_cancel]
    exact ih

/-- Counting the days from the epoch gives a date the number that the calendar computes. -/
theorem falls_iff {d : Date} {n : Int} : Falls d n ↔ d.Exists ∧ dayNumber d = n + epoch := by
  constructor
  · exact Falls.dayNumber_eq
  · rintro ⟨hexists, hnumber⟩
    obtain ⟨hexists', hnumber'⟩ := dateOf_spec (n + epoch)
    have hdate : dateOf (n + epoch) = d := dayNumber_inj hexists' hexists (by rw [hnumber', hnumber])
    rw [← hdate]
    exact falls_dateOf n

theorem exists_falls {d : Date} (h : d.Exists) : ∃ n, Falls d n :=
  ⟨dayNumber d - epoch, falls_iff.mpr ⟨h, (Int.sub_add_cancel _ _).symm⟩⟩

end MailDispatch.Time.Calendar
