import MailDispatch.Proofs.Time.Instants
import MailDispatch.Time.Written

/-! # Written timestamps read back

The written form of a timestamp is one of the spellings of its date and time of day in coordinated
time. The days up to the date and the time of day make the second that was written, and the
sixtieth second of a minute stands for a leap second, so that the timestamp is read back.
-/
namespace MailDispatch.Time
open Text Numeral Calendar

/-! ## Characters -/

theorem Timestamp.of_mem_written {P : Char → Prop} (hdigit : ∀ d : Fin 10, P (Nat.digitChar d.val))
    (hmark : ∀ c ∈ ['-', '+', 'T', ':', '.', 'Z'], P c) {t : Timestamp} {c : Char}
    (hc : c ∈ t.written) : P c := by
  have hpadded : ∀ width n, ∀ c ∈ padded width n, P c := fun width n c => of_mem_padded hdigit
  have hyear : ∀ y, ∀ c ∈ writtenYear y, P c := by
    intro y c hc
    unfold writtenYear at hc
    split at hc
    · exact hpadded _ _ c hc
    · rcases List.mem_cons.mp hc with rfl | hc
      · split
        · exact hmark '-' (by decide)
        · exact hmark '+' (by decide)
      · exact hpadded _ _ c hc
  have hfraction : ∀ nano, ∀ c ∈ writtenFraction nano, P c := by
    intro nano c hc
    unfold writtenFraction at hc
    split at hc
    · cases hc
    · have hsplit : c = '.' ∨ ∃ width n, c ∈ padded width n := by
        split at hc
        · exact (List.mem_cons.mp hc).imp_right fun h => ⟨_, _, h⟩
        · split at hc
          · exact (List.mem_cons.mp hc).imp_right fun h => ⟨_, _, h⟩
          · exact (List.mem_cons.mp hc).imp_right fun h => ⟨_, _, h⟩
      rcases hsplit with rfl | ⟨width, n, hc⟩
      · exact hmark '.' (by decide)
      · exact hpadded width n c hc
  simp only [written, List.mem_append, List.mem_cons, List.not_mem_nil, or_false] at hc
  rcases hc with (((((((hc | rfl | hc) | rfl | hc) | rfl | hc) | rfl | hc) | rfl | hc) | hc) | rfl)
  all_goals first
    | exact hyear _ _ hc
    | exact hpadded _ _ _ hc
    | exact hfraction _ _ hc
    | exact hmark _ (by decide)

namespace Reader

/-! ## The parts -/

theorem SpellsMark.alone (c : Char) : SpellsMark c [c] :=
  .mark Gap.nil

theorem spellsPart_padded {n : Nat} (h : n < 100) : SpellsPart n (padded 2 n) := by
  have hlength : (padded 2 n).length = 2 := length_padded h
  exact SpellsPart.part (l := []) Gap.nil (isNumeral_padded 2 n) (Nat.le_of_eq hlength)

/-- A year of four digits stands alone; any other one has a sign. -/
theorem spellsYear_written (y : Int) : SpellsYear y (Timestamp.writtenYear y) := by
  unfold Timestamp.writtenYear
  split
  · next hshort =>
    have hlength : (padded 4 y.toNat).length = 4 := length_padded (by omega)
    have hspells : SpellsYear y.toNat (padded 4 y.toNat) :=
      SpellsYear.unsigned (l := []) Gap.nil (isNumeral_padded 4 _) (Nat.le_of_eq hlength)
    rwa [Int.toNat_of_nonneg hshort.1] at hspells
  · have hnumeral := isNumeral_padded 4 y.natAbs
    split
    · next hnegative =>
      have hspells : SpellsYear (-(y.natAbs : Int)) ('-' :: padded 4 y.natAbs) :=
        .negative Gap.nil hnumeral
      rwa [show -(y.natAbs : Int) = y by omega] at hspells
    · next hpositive =>
      have hspells : SpellsYear y.natAbs ('+' :: padded 4 y.natAbs) := .positive Gap.nil hnumeral
      rwa [show (y.natAbs : Int) = y by omega] at hspells

theorem spellsFraction_padded {width n : Nat} (hn : n < 10 ^ (width + 1)) (hwidth : width + 1 ≤ 9) :
    SpellsFraction (n * 10 ^ (9 - (width + 1))) ('.' :: padded (width + 1) n) := by
  have hspells := SpellsFraction.digits (isNumeral_padded (width + 1) n)
  have hpower : 10 ^ 9 = 10 ^ (9 - (width + 1)) * 10 ^ (width + 1) := by
    rw [← Nat.pow_add, Nat.sub_add_cancel hwidth]
  rwa [length_padded hn, hpower, ← Nat.mul_assoc,
    Nat.mul_div_cancel _ (Nat.pow_pos (by decide))] at hspells

/-- The digits that a fraction leaves out at its end are zeros. -/
theorem spellsFraction_written {nano : Nat} (h : nano < 1000000000) :
    SpellsFraction nano (Timestamp.writtenFraction nano) := by
  unfold Timestamp.writtenFraction
  split
  · next hzero =>
    rw [hzero]
    exact .none
  · split
    · next hmillis =>
      have hn : nano / 1000000 < 10 ^ (2 + 1) := by omega
      have hspells := spellsFraction_padded hn (by decide)
      rwa [show nano / 1000000 * 10 ^ (9 - (2 + 1)) = nano by omega] at hspells
    · split
      · next hmicros =>
        have hn : nano / 1000 < 10 ^ (5 + 1) := by omega
        have hspells := spellsFraction_padded hn (by decide)
        rwa [show nano / 1000 * 10 ^ (9 - (5 + 1)) = nano by omega] at hspells
      · have hn : nano < 10 ^ (8 + 1) := h
        have hspells := spellsFraction_padded hn (by decide)
        rwa [show nano * 10 ^ (9 - (8 + 1)) = nano by omega] at hspells

/-! ## The timestamp -/

theorem year_bounds (t : Timestamp) : -262143 ≤ t.date.year ∧ t.date.year ≤ 262142 := by
  have hfirst : daysBeforeYear (-262143) = firstSecond / 86400 + epoch := by decide
  have hlast : lastSecond / 86400 + epoch < daysBeforeYear (262142 + 1) := by decide
  have hlow := Int.ediv_le_ediv (c := 86400) (by decide) t.first_le
  have hhigh := Int.ediv_le_ediv (c := 86400) (by decide) t.le_last
  rw [Timestamp.date, year_dateOf]
  exact ⟨le_yearOf (by omega), yearOf_le (by omega)⟩

theorem secondOfDay_lt (t : Timestamp) : t.secondOfDay < 86400 := by
  unfold Timestamp.secondOfDay
  omega

/-- The second within the minute that is written, and what it stands for. -/
theorem writtenSecond_spec (t : Timestamp) :
    let second := Timestamp.writtenSecond (t.secondOfDay % 60) t.nano
    second.1 ≤ 60 ∧ second.2 < 1000000000 ∧ min second.1 59 = t.secondOfDay % 60 ∧
      t.nano = if second.1 = 60 then second.2 + 1000000000 else second.2 := by
  have hnano := t.nano_lt
  unfold Timestamp.writtenSecond
  split
  · next hleap =>
    have hlast : t.secondOfDay % 60 = 59 := by
      have := t.leap hleap
      unfold Timestamp.secondOfDay
      omega
    dsimp only
    rw [hlast, if_pos rfl]
    omega
  · next hplain =>
    dsimp only
    rw [if_neg (by omega)]
    omega

/-- The date and the time of day of a timestamp in coordinated time. -/
def coordinated (t : Timestamp) : LocalTime where
  date := t.date
  clock :=
    let second := Timestamp.writtenSecond (t.secondOfDay % 60) t.nano
    ⟨t.secondOfDay / 3600, t.secondOfDay / 60 % 60, second.1, second.2⟩
  ahead := 0
  real := (dateOf_spec _).1
  timely := by
    obtain ⟨hsecond, hnano, -⟩ := writtenSecond_spec t
    have hday := secondOfDay_lt t
    exact ⟨by dsimp only; omega, by dsimp only; omega, hsecond, hnano⟩
  near := by decide

theorem denotes_coordinated (t : Timestamp) : (coordinated t).Denotes t.second t.nano := by
  obtain ⟨-, -, hsecond, hnano⟩ := writtenSecond_spec t
  refine ⟨t.second / 86400, falls_dateOf _, ?_, hnano⟩
  have hday : (t.secondOfDay : Int) = t.second % 86400 := by
    unfold Timestamp.secondOfDay
    omega
  dsimp only [coordinated]
  omega

theorem spellsTime_written (t : Timestamp) : SpellsTime (coordinated t) t.written := by
  obtain ⟨hsecond, hnano, -⟩ := writtenSecond_spec t
  have hexists : t.date.Exists := (dateOf_spec _).1
  have hmonth := hexists.month_le
  have hdays := hexists.day_le
  have hday := secondOfDay_lt t
  have hdate : SpellsDate (coordinated t).date _ :=
    .date (spellsYear_written t.date.year) (.alone '-')
      (spellsPart_padded (n := t.date.month) (by omega)) (.alone '-')
      (spellsPart_padded (n := t.date.day) (by omega))
  have hclock : SpellsClock (coordinated t).clock _ :=
    .clock (spellsPart_padded (n := t.secondOfDay / 3600) (by omega)) (.alone ':')
      (spellsPart_padded (n := t.secondOfDay / 60 % 60) (by omega)) (.alone ':')
      (spellsPart_padded (Nat.lt_of_le_of_lt hsecond (by decide))) (spellsFraction_written hnano)
  have hspells := SpellsTime.time hdate (.inl rfl) hclock (.zulu Gap.nil (.inl rfl)) Gap.nil
  unfold Timestamp.written
  simp only [List.append_assoc, List.cons_append, List.nil_append, List.append_nil] at hspells ⊢
  exact hspells

/-- Every timestamp is read from its written form. -/
theorem read_written (t : Timestamp) : read t.written = .ok t :=
  read_eq_ok_iff.mpr ⟨coordinated t, spellsTime_written t, year_bounds t, denotes_coordinated t⟩

end Reader
end MailDispatch.Time
