import MailDispatch.Proofs.Text.Digits
import MailDispatch.Proofs.Time.Days
import MailDispatch.Time.Reader

/-! # The spellings of a timestamp

A date, a time of day and an offset have many spellings: the blanks between the parts, zeros in
front of a number, the letter between date and time of day, the digits of the fraction and the form
of the offset are free. The grammar is given here apart from the reader, which takes the same
parts from every spelling.
-/
namespace MailDispatch.Time.Reader
open Text Numeral Calendar

/-! ## The grammar -/

def Gap (l : List Char) : Prop := ∀ c ∈ l, isBlank c = true

/-- A number of one digit or of two. -/
inductive SpellsPart (n : Nat) : List Char → Prop where
  | part {l w : List Char} (hl : Gap l) (hw : IsNumeral n w) (hlength : w.length ≤ 2) :
      SpellsPart n (l ++ w)

inductive SpellsMark (c : Char) : List Char → Prop where
  | mark {l : List Char} (hl : Gap l) : SpellsMark c (l ++ [c])

/-- A year has four digits at most, or a sign and any number of digits. -/
inductive SpellsYear : Int → List Char → Prop where
  | unsigned {n : Nat} {l w : List Char} (hl : Gap l) (hw : IsNumeral n w)
      (hlength : w.length ≤ 4) : SpellsYear n (l ++ w)
  | positive {n : Nat} {l w : List Char} (hl : Gap l) (hw : IsNumeral n w) :
      SpellsYear n (l ++ '+' :: w)
  | negative {n : Nat} {l w : List Char} (hl : Gap l) (hw : IsNumeral n w) :
      SpellsYear (-n) (l ++ '-' :: w)

inductive SpellsDate (d : Date) : List Char → Prop where
  | date {y a m b w : List Char} (hy : SpellsYear d.year y) (ha : SpellsMark '-' a)
      (hm : SpellsPart d.month m) (hb : SpellsMark '-' b) (hw : SpellsPart d.day w) :
      SpellsDate d (y ++ (a ++ (m ++ (b ++ w))))

/-- A fraction of a second is a decimal fraction, rounded down to whole nanoseconds. -/
inductive SpellsFraction : Nat → List Char → Prop where
  | none : SpellsFraction 0 []
  | digits {n : Nat} {w : List Char} (hw : IsNumeral n w) :
      SpellsFraction (n * 10 ^ 9 / 10 ^ w.length) ('.' :: w)

inductive SpellsClock (c : Clock) : List Char → Prop where
  | clock {h a m b s f : List Char} (hh : SpellsPart c.hour h) (ha : SpellsMark ':' a)
      (hm : SpellsPart c.minute m) (hb : SpellsMark ':' b) (hs : SpellsPart c.second s)
      (hf : SpellsFraction c.nano f) : SpellsClock c (h ++ (a ++ (m ++ (b ++ (s ++ f)))))

/-- The hours and minutes of an offset have two digits each, with a colon or blanks or nothing
between them. -/
inductive SpellsShift : Nat → List Char → Prop where
  | shift {h m : Nat} {v g w : List Char} (hv : IsNumeral h v) (hvlength : v.length = 2)
      (hg : ∀ c ∈ g, isColonOrBlank c = true) (hw : IsNumeral m w) (hwlength : w.length = 2)
      (hm : m < 60) : SpellsShift (h * 60 + m) (v ++ (g ++ w))

/-- An offset in minutes: a letter or a name for none, or a sign and how far it is. -/
inductive SpellsOffset : Int → List Char → Prop where
  | zulu {l : List Char} {c : Char} (hl : Gap l) (hc : c = 'Z' ∨ c = 'z') :
      SpellsOffset 0 (l ++ [c])
  | named {l : List Char} {u t c : Char} (hl : Gap l) (hu : u = 'U' ∨ u = 'u')
      (ht : t = 'T' ∨ t = 't') (hc : c = 'C' ∨ c = 'c') : SpellsOffset 0 (l ++ [u, t, c])
  | ahead {n : Nat} {l w : List Char} (hl : Gap l) (hw : SpellsShift n w) :
      SpellsOffset n (l ++ '+' :: w)
  | behind {n : Nat} {l w : List Char} {c : Char} (hl : Gap l) (hc : c = '-' ∨ c = '\u2212')
      (hw : SpellsShift n w) : SpellsOffset (-n) (l ++ c :: w)

/-- A date and a time of day somewhere, where clocks are so many minutes ahead of coordinated
time. The sixtieth second of a minute is a leap second. -/
structure LocalTime where
  date : Date
  clock : Clock
  ahead : Int
  real : date.Exists
  timely : clock.hour ≤ 23 ∧ clock.minute ≤ 59 ∧ clock.second ≤ 60 ∧ clock.nano < 1000000000
  near : -1440 < ahead ∧ ahead < 1440

/-- The years that timestamps reach. -/
def LocalTime.Known (x : LocalTime) : Prop := -262143 ≤ x.date.year ∧ x.date.year ≤ 262142

inductive SpellsTime (x : LocalTime) : List Char → Prop where
  | time {d c o g : List Char} {sep : Char} (hd : SpellsDate x.date d)
      (hsep : sep = 'T' ∨ sep = 't' ∨ sep = ' ') (hc : SpellsClock x.clock c)
      (ho : SpellsOffset x.ahead o) (hg : Gap g) : SpellsTime x (d ++ sep :: (c ++ (o ++ g)))

/-! ## Blanks and marks -/

theorem Gap.nil : Gap [] := by
  rintro c ⟨⟩

theorem trimStart_append {l : List Char} (h : Gap l) (s : List Char) :
    trimStart (l ++ s) = trimStart s :=
  List.dropWhile_append_of_pos h

theorem trimStart_append_cons {l : List Char} (h : Gap l) {c : Char} (hc : isBlank c = false)
    (s : List Char) : trimStart (l ++ c :: s) = c :: s := by
  rw [trimStart_append h, trimStart_of_not_blank hc]

theorem trimStart_gap {l : List Char} (h : Gap l) : trimStart l = [] := by
  have happend := trimStart_append h []
  rwa [List.append_nil] at happend

theorem spaced_spelled {c : Char} {w : List Char} (h : SpellsMark c w) (hc : isBlank c = false)
    (rest : List Char) : spaced c (w ++ rest) = .ok rest := by
  cases h with
  | mark hl =>
    rw [List.append_assoc, List.singleton_append, spaced, trimStart_append_cons hl hc]
    exact if_pos rfl

/-! ## Numbers -/

/-- What comes next is no digit. -/
def EndsDigits (rest : List Char) : Prop := ∀ c ∈ rest.head?, digit? c = none

theorem endsDigits_cons {c : Char} (h : digit? c = none) (rest : List Char) :
    EndsDigits (c :: rest) := by
  rintro d ⟨⟩
  exact h

theorem Gap.endsDigits {l : List Char} (hl : Gap l) {s : List Char} (hs : EndsDigits s) :
    EndsDigits (l ++ s) := by
  cases l with
  | nil => exact hs
  | cons c l => exact endsDigits_cons (digit?_eq_none_of_isBlank (hl c List.mem_cons_self)) _

theorem SpellsMark.endsDigits {c : Char} {w : List Char} (h : SpellsMark c w)
    (hc : digit? c = none) (rest : List Char) : EndsDigits (w ++ rest) := by
  cases h with
  | mark hl =>
    rw [List.append_assoc]
    exact hl.endsDigits (endsDigits_cons hc rest)

theorem digits_of_endsDigits {rest : List Char} (h : EndsDigits rest) (width value : Nat) :
    digits width value rest = .ok (value, rest) := by
  cases width with
  | zero => rfl
  | succ width =>
    cases rest with
    | nil => rfl
    | cons c rest =>
      have hc : digit? c = none := h c rfl
      simp only [digits, hc]

/-- Digits are gathered as long as their value has 63 bits. -/
theorem digits_append {w : List Char} (h : ∀ c ∈ w, (digit? c).isSome = true) (width value : Nat)
    (hfits : valueFrom value w ≤ 9223372036854775807) (rest : List Char) :
    digits (w.length + width) value (w ++ rest) = digits width (valueFrom value w) rest := by
  induction w generalizing value with
  | nil => rw [List.length_nil, Nat.zero_add, List.nil_append]; rfl
  | cons c w ih =>
    obtain ⟨d, hd⟩ := Option.isSome_iff_exists.mp (h c List.mem_cons_self)
    have hcons : valueFrom value (c :: w) = valueFrom (value * 10 + d) w := by
      simp only [valueFrom, List.foldl_cons, hd, Option.getD_some]
    rw [hcons] at hfits ⊢
    have hnext : value * 10 + d ≤ 9223372036854775807 := Nat.le_trans (le_valueFrom _ w) hfits
    rw [List.length_cons, Nat.add_right_comm, List.cons_append]
    simp only [digits, hd, if_pos hnext]
    exact ih (fun c hc => h c (List.mem_cons_of_mem _ hc)) _ hfits

theorem digits_overflow {w : List Char} (h : ∀ c ∈ w, (digit? c).isSome = true) (width : Nat)
    {value : Nat} (hvalue : value ≤ 9223372036854775807)
    (hover : 9223372036854775807 < valueFrom value w) (rest : List Char) :
    digits (w.length + width) value (w ++ rest) = .error .outOfRange := by
  induction w generalizing value with
  | nil => exact absurd hvalue (Nat.not_le.mpr hover)
  | cons c w ih =>
    obtain ⟨d, hd⟩ := Option.isSome_iff_exists.mp (h c List.mem_cons_self)
    have hcons : valueFrom value (c :: w) = valueFrom (value * 10 + d) w := by
      simp only [valueFrom, List.foldl_cons, hd, Option.getD_some]
    rw [hcons] at hover
    rw [List.length_cons, Nat.add_right_comm, List.cons_append]
    simp only [digits, hd]
    split
    · next hnext => exact ih (fun c hc => h c (List.mem_cons_of_mem _ hc)) hnext hover
    · rfl

/-- In front of a numeral there are digits to read. -/
theorem number_eq_digits {n : Nat} {w : List Char} (hw : IsNumeral n w) (width : Nat)
    (rest : List Char) : number width (w ++ rest) = digits width 0 (w ++ rest) := by
  obtain ⟨c, cs, rfl, hc⟩ := hw.exists_cons
  obtain ⟨d, hd⟩ := Option.isSome_iff_exists.mp hc
  simp only [List.cons_append, number, hd]

/-- The digits of a number are read as that number, if they do not go on behind the width. -/
theorem number_numeral {n width : Nat} {w rest : List Char} (hw : IsNumeral n w)
    (hfits : n ≤ 9223372036854775807) (hwidth : w.length ≤ width)
    (hend : w.length = width ∨ EndsDigits rest) : number width (w ++ rest) = .ok (n, rest) := by
  obtain ⟨more, rfl⟩ := Nat.exists_eq_add_of_le hwidth
  rw [number_eq_digits hw, digits_append hw.digits more 0 (by rw [hw.value]; exact hfits), hw.value]
  rcases hend with hexact | hend
  · obtain rfl : more = 0 := by omega
    rfl
  · exact digits_of_endsDigits hend more n

theorem IsNumeral.trimStart_append {n : Nat} {w : List Char} (hw : IsNumeral n w) {l : List Char}
    (hl : Gap l) (rest : List Char) : trimStart (l ++ (w ++ rest)) = w ++ rest := by
  obtain ⟨c, cs, rfl, hc⟩ := hw.exists_cons
  have hblank : isBlank c = false := of_digit? (P := fun c => isBlank c = false) (by decide) hc
  exact trimStart_append_cons hl hblank (cs ++ rest)

theorem bounded_spelled {low high n : Nat} {w : List Char} (h : SpellsPart n w) (hlow : low ≤ n)
    (hhigh : n ≤ high) {rest : List Char} (hend : EndsDigits rest) :
    bounded low high (w ++ rest) = .ok (n, rest) := by
  cases h with
  | @part l w hl hw hlength =>
    have hsmall : n ≤ 9223372036854775807 := by
      have hlt := Nat.lt_of_lt_of_le hw.lt (Nat.pow_le_pow_right (by decide) hlength)
      omega
    have hread := number_numeral hw hsmall hlength (.inr hend)
    rw [List.append_assoc, bounded, IsNumeral.trimStart_append hw hl, hread]
    exact if_pos ⟨hlow, hhigh⟩

/-! ## The date -/

/-- A sign may be followed by any number of digits. -/
theorem number_signed {n : Nat} {w : List Char} (hw : IsNumeral n w) {rest : List Char}
    (hend : EndsDigits rest) :
    number (w ++ rest).length (w ++ rest) =
      if n ≤ 9223372036854775807 then .ok (n, rest) else .error .outOfRange := by
  split
  · next hfits =>
    apply number_numeral hw hfits _ (.inr hend)
    rw [List.length_append]
    exact Nat.le_add_right _ _
  · next hover =>
    rw [number_eq_digits hw, List.length_append]
    exact digits_overflow hw.digits rest.length (Nat.zero_le _)
      (by rw [hw.value]; exact Nat.not_le.mp hover) rest

/-- A year is read if it has 32 bits. -/
theorem year_spelled {y : Int} {w : List Char} (h : SpellsYear y w) {rest : List Char}
    (hend : EndsDigits rest) :
    year (w ++ rest) =
      if -2147483648 ≤ y ∧ y ≤ 2147483647 then .ok (y, rest) else .error .outOfRange := by
  have hbound : ∀ {n : Nat} {z : Int}, (z = n ∨ z = -n) → ¬ n ≤ 9223372036854775807 →
      ¬ (-2147483648 ≤ z ∧ z ≤ 2147483647) := by
    omega
  cases h with
  | @unsigned n l w hl hw hlength =>
    have hsmall : n ≤ 9223372036854775807 := by
      have hlt := Nat.lt_of_lt_of_le hw.lt (Nat.pow_le_pow_right (by decide) hlength)
      omega
    have hread := number_numeral hw hsmall hlength (.inr hend)
    obtain ⟨c, cs, rfl, hc⟩ := hw.exists_cons
    obtain ⟨hminus, hplus⟩ : c ≠ '-' ∧ c ≠ '+' :=
      of_digit? (P := fun c => c ≠ '-' ∧ c ≠ '+') (by decide) hc
    rw [List.append_assoc, year, IsNumeral.trimStart_append hw hl]
    rw [List.cons_append] at hread ⊢
    split
    · next heq => exact absurd (List.cons.inj heq).1 hminus
    · next heq => exact absurd (List.cons.inj heq).1 hplus
    · rw [hread]
      rfl
  | @positive n l w hl hw =>
    rw [List.append_assoc, List.cons_append, year, trimStart_append_cons hl (by decide)]
    simp only [number_signed hw hend]
    by_cases hfits : n ≤ 9223372036854775807
    · rw [if_pos hfits]
      rfl
    · rw [if_neg hfits, if_neg (hbound (.inl rfl) hfits)]
      rfl
  | @negative n l w hl hw =>
    rw [List.append_assoc, List.cons_append, year, trimStart_append_cons hl (by decide)]
    simp only [number_signed hw hend]
    by_cases hfits : n ≤ 9223372036854775807
    · rw [if_pos hfits]
      rfl
    · rw [if_neg hfits, if_neg (hbound (.inr rfl) hfits)]
      rfl

theorem date_spelled {d : Date} {w : List Char} (h : SpellsDate d w) (hd : d.Exists)
    {rest : List Char} (hend : EndsDigits rest) :
    date (w ++ rest) =
      if -2147483648 ≤ d.year ∧ d.year ≤ 2147483647 then .ok (d, rest) else .error .outOfRange := by
  cases h with
  | date hy ha hm hb hw =>
    have hdash : digit? '-' = none := by decide
    have hblank : isBlank '-' = false := by decide
    simp only [List.append_assoc, date, year_spelled hy (ha.endsDigits hdash _)]
    split
    · simp only [bind, Except.bind, spaced_spelled ha hblank,
        bounded_spelled hm hd.month_pos hd.month_le (hb.endsDigits hdash _),
        spaced_spelled hb hblank, bounded_spelled hw hd.1 hd.day_le hend]
      rfl
    · rfl

/-! ## The time of day -/

/-- What comes next belongs to no time of day. -/
def EndsClock (rest : List Char) : Prop := ∀ c ∈ rest.head?, digit? c = none ∧ c ≠ '.'

theorem EndsClock.endsDigits {rest : List Char} (h : EndsClock rest) : EndsDigits rest :=
  fun c hc => (h c hc).1

theorem dropWhile_digits {w rest : List Char} (hw : ∀ c ∈ w, (digit? c).isSome = true)
    (hend : EndsDigits rest) :
    ((w ++ rest).dropWhile fun c => (digit? c).isSome) = rest := by
  rw [List.dropWhile_append_of_pos hw]
  cases rest with
  | nil => rfl
  | cons c rest =>
    have hc : digit? c = none := hend c rfl
    exact List.dropWhile_cons_of_neg (by simp [hc])

theorem fraction_numeral {n : Nat} {w : List Char} (hw : IsNumeral n w) {rest : List Char}
    (hend : EndsDigits rest) :
    fraction ('.' :: (w ++ rest)) = .ok (n * 10 ^ 9 / 10 ^ w.length, rest) := by
  rcases Nat.le_total w.length 9 with hshort | hlong
  · have hsmall : n ≤ 9223372036854775807 := by
      have hlt := Nat.lt_of_lt_of_le hw.lt (Nat.pow_le_pow_right (by decide) hshort)
      omega
    have hread := number_numeral hw hsmall hshort (.inr hend)
    have hused : (w ++ rest).length - rest.length = w.length := by
      rw [List.length_append, Nat.add_sub_cancel]
    have hvalue : n * 10 ^ 9 / 10 ^ w.length = n * Nat.pow 10 (9 - w.length) := by
      have hpower : 10 ^ 9 = 10 ^ (9 - w.length) * 10 ^ w.length := by
        rw [← Nat.pow_add, Nat.sub_add_cancel hshort]
      rw [hpower, ← Nat.mul_assoc, Nat.mul_div_cancel _ (Nat.pow_pos (by decide))]
      rfl
    have hnone : ∀ c ∈ ([] : List Char), (digit? c).isSome = true := by
      rintro c ⟨⟩
    have hdrop := dropWhile_digits hnone hend
    rw [List.nil_append] at hdrop
    simp only [fraction, hread, bind, Except.bind, hused, hdrop, hvalue]
    rfl
  · -- The digits beyond the ninth are less than one nanosecond.
    obtain ⟨u, v, rfl, hu⟩ : ∃ u v, w = u ++ v ∧ u.length = 9 :=
      ⟨w.take 9, w.drop 9, (List.take_append_drop 9 w).symm, List.length_take_of_le hlong⟩
    have hv : ∀ c ∈ v, (digit? c).isSome = true := fun c hc =>
      hw.digits c (List.mem_append_right u hc)
    have hfirst : IsNumeral (valueFrom 0 u) u := by
      refine ⟨?_, fun c hc => hw.digits c (List.mem_append_left v hc), rfl⟩
      rintro rfl
      cases hu
    have hsmall : valueFrom 0 u ≤ 9223372036854775807 := by
      have hlt := hfirst.lt
      rw [hu] at hlt
      omega
    have hread : number 9 (u ++ (v ++ rest)) = .ok (valueFrom 0 u, v ++ rest) :=
      number_numeral hfirst hsmall (Nat.le_of_eq hu) (.inl hu)
    have hused : (u ++ (v ++ rest)).length - (v ++ rest).length = 9 := by
      rw [List.length_append, hu, Nat.add_sub_cancel]
    have hvalue : n * 10 ^ 9 / 10 ^ (u ++ v).length = valueFrom 0 u * Nat.pow 10 (9 - 9) := by
      have hlt := valueFrom_lt hv
      rw [← hw.value, valueFrom_append, valueFrom_eq, List.length_append, hu, Nat.pow_add,
        Nat.mul_comm (10 ^ 9), Nat.mul_div_mul_right _ _ (by decide), Nat.mul_comm _ (10 ^ _),
        Nat.mul_add_div (Nat.pow_pos (by decide)), Nat.div_eq_of_lt hlt, Nat.add_zero]
      exact (Nat.mul_one _).symm
    rw [List.append_assoc]
    simp only [fraction, hread, bind, Except.bind, hused, dropWhile_digits hv hend, hvalue]
    rfl

theorem fraction_spelled {nano : Nat} {w : List Char} (h : SpellsFraction nano w)
    {rest : List Char} (hend : EndsClock rest) : fraction (w ++ rest) = .ok (nano, rest) := by
  cases h with
  | none =>
    cases rest with
    | nil => rfl
    | cons c rest =>
      have hpoint : c ≠ '.' := (hend c rfl).2
      unfold fraction
      split
      · next heq => exact absurd (List.cons.inj heq).1 hpoint
      · rfl
  | digits hw => exact fraction_numeral hw hend.endsDigits

/-- Zeros at the end of a fraction say nothing. -/
theorem SpellsFraction.append_zeros {nano : Nat} {w : List Char}
    (h : SpellsFraction nano ('.' :: w)) (k : Nat) :
    SpellsFraction nano ('.' :: (w ++ List.replicate k '0')) := by
  cases h with
  | @digits n w hw =>
    have hzeros : ∀ c ∈ List.replicate k '0', (digit? c).isSome = true := by
      intro c hc
      rw [List.eq_of_mem_replicate hc]
      decide
    have hlonger : IsNumeral (n * 10 ^ k) (w ++ List.replicate k '0') := by
      refine ⟨List.append_ne_nil_of_left_ne_nil hw.nonempty _, ?_, ?_⟩
      · intro c hc
        rcases List.mem_append.mp hc with hc | hc
        · exact hw.digits c hc
        · exact hzeros c hc
      · rw [valueFrom_append, valueFrom_eq, valueFrom_zeros, hw.value, List.length_replicate,
          Nat.add_zero]
    have hspells := SpellsFraction.digits hlonger
    rwa [List.length_append, List.length_replicate, Nat.pow_add, Nat.mul_right_comm,
      Nat.mul_div_mul_right _ _ (Nat.pow_pos (by decide))] at hspells

theorem SpellsFraction.endsDigits {nano : Nat} {w : List Char} (h : SpellsFraction nano w)
    {rest : List Char} (hend : EndsClock rest) : EndsDigits (w ++ rest) := by
  cases h with
  | none => exact hend.endsDigits
  | digits => exact endsDigits_cons (by decide) _

theorem clock_spelled {c : Clock} {w : List Char} (h : SpellsClock c w) (hhour : c.hour ≤ 23)
    (hminute : c.minute ≤ 59) (hsecond : c.second ≤ 60) {rest : List Char}
    (hend : EndsClock rest) : clock (w ++ rest) = .ok (c, rest) := by
  cases h with
  | clock hh ha hm hb hs hf =>
    have hcolon : digit? ':' = none := by decide
    have hblank : isBlank ':' = false := by decide
    simp only [List.append_assoc, clock, bind, Except.bind,
      bounded_spelled hh (Nat.zero_le _) hhour (ha.endsDigits hcolon _), spaced_spelled ha hblank,
      bounded_spelled hm (Nat.zero_le _) hminute (hb.endsDigits hcolon _),
      spaced_spelled hb hblank,
      bounded_spelled hs (Nat.zero_le _) hsecond (hf.endsDigits hend), fraction_spelled hf hend]
    rfl

/-! ## The offset -/

theorem twoDigits_numeral {n : Nat} {w : List Char} (hw : IsNumeral n w) (hlength : w.length = 2)
    (rest : List Char) : twoDigits (w ++ rest) = .ok (n, rest) := by
  obtain ⟨a, b, rfl⟩ : ∃ a b, w = [a, b] := by
    match w, hlength with
    | [a, b], _ => exact ⟨a, b, rfl⟩
  obtain ⟨d, hd⟩ := Option.isSome_iff_exists.mp (hw.digits a (by simp))
  obtain ⟨e, he⟩ := Option.isSome_iff_exists.mp (hw.digits b (by simp))
  have hvalue := hw.value
  simp only [valueFrom, List.foldl_cons, List.foldl_nil, hd, he, Option.getD_some, Nat.zero_mul,
    Nat.zero_add] at hvalue
  simp only [List.cons_append, List.nil_append, twoDigits, hd, he, hvalue]

theorem offsetMinutes_spelled {n : Nat} {w : List Char} (h : SpellsShift n w) (rest : List Char) :
    offsetMinutes (w ++ rest) = .ok (n, rest) := by
  cases h with
  | @shift h m v g w hv hvlength hg hw hwlength hm =>
    have hdrop : (g ++ (w ++ rest)).dropWhile isColonOrBlank = w ++ rest := by
      rw [List.dropWhile_append_of_pos hg]
      obtain ⟨c, cs, rfl, hc⟩ := hw.exists_cons
      have hdigit : isColonOrBlank c = false :=
        of_digit? (P := fun c => isColonOrBlank c = false) (by decide) hc
      exact List.dropWhile_cons_of_neg (by simp [hdigit])
    simp only [List.append_assoc, offsetMinutes, bind, Except.bind,
      twoDigits_numeral hv hvlength, hdrop, twoDigits_numeral hw hwlength, if_pos hm]
    rfl

theorem offset_spelled {n : Int} {w : List Char} (h : SpellsOffset n w) (rest : List Char) :
    offset (w ++ rest) = .ok (n * 60, rest) := by
  cases h with
  | zulu hl hc =>
    rw [List.append_assoc, List.singleton_append, offset]
    rcases hc with rfl | rfl
    · rw [trimStart_append_cons hl (by decide)]
      rfl
    · rw [trimStart_append_cons hl (by decide)]
      rfl
  | named hl hu ht hc =>
    rw [List.append_assoc, offset]
    rcases hu with rfl | rfl <;> rcases ht with rfl | rfl <;> rcases hc with rfl | rfl
    all_goals
      simp only [List.cons_append, List.nil_append]
      rw [trimStart_append_cons hl (by decide)]
      rfl
  | ahead hl hw =>
    rw [List.append_assoc, List.cons_append, offset, trimStart_append_cons hl (by decide)]
    simp only [offsetMinutes_spelled hw, bind, Except.bind]
    rfl
  | behind hl hc hw =>
    rw [List.append_assoc, List.cons_append, offset, Int.neg_mul]
    rcases hc with rfl | rfl
    · rw [trimStart_append_cons hl (by decide)]
      simp only [offsetMinutes_spelled hw, bind, Except.bind]
      rfl
    · rw [trimStart_append_cons hl (by decide)]
      simp only [offsetMinutes_spelled hw, bind, Except.bind]
      rfl

theorem SpellsOffset.endsClock {n : Int} {w : List Char} (h : SpellsOffset n w)
    (rest : List Char) : EndsClock (w ++ rest) := by
  have hgap : ∀ {l : List Char} {c : Char} {s : List Char}, Gap l →
      digit? c = none ∧ c ≠ '.' → EndsClock (l ++ c :: s) := by
    intro l c s hl hc
    cases l with
    | nil =>
      rintro d ⟨⟩
      exact hc
    | cons b l =>
      have hb := hl b List.mem_cons_self
      rintro d ⟨⟩
      refine ⟨digit?_eq_none_of_isBlank hb, ?_⟩
      rintro rfl
      exact absurd hb (by decide)
  cases h with
  | zulu hl hc =>
    rw [List.append_assoc, List.singleton_append]
    rcases hc with rfl | rfl
    · exact hgap hl (by decide)
    · exact hgap hl (by decide)
  | named hl hu ht hc =>
    rw [List.append_assoc, List.cons_append]
    rcases hu with rfl | rfl
    · exact hgap hl (by decide)
    · exact hgap hl (by decide)
  | ahead hl hw =>
    rw [List.append_assoc, List.cons_append]
    exact hgap hl (by decide)
  | behind hl hc hw =>
    rw [List.append_assoc, List.cons_append]
    rcases hc with rfl | rfl
    · exact hgap hl (by decide)
    · exact hgap hl (by decide)

/-! ## The timestamp -/

theorem separator_cons {c : Char} (h : c = 'T' ∨ c = 't' ∨ c = ' ') (rest : List Char) :
    separator (c :: rest) = .ok rest :=
  if_pos h

section
variable {x : LocalTime} {w : List Char} (h : SpellsTime x w)
include h

/-- From each of its spellings the same parts are read, if the year has 32 bits. -/
theorem read_parts : read w =
    if -2147483648 ≤ x.date.year ∧ x.date.year ≤ 2147483647 then
      resolve x.date x.clock (x.ahead * 60)
    else .error .outOfRange := by
  cases h with
  | @time d c o g sep hd hsep hc ho hg =>
    have hdigit : digit? sep = none := by rcases hsep with rfl | rfl | rfl <;> decide
    obtain ⟨hhour, hminute, hsecond, -⟩ := x.timely
    simp only [read, date_spelled hd x.real (endsDigits_cons hdigit (c ++ (o ++ g)))]
    split
    · simp only [bind, Except.bind, separator_cons hsep,
        clock_spelled hc hhour hminute hsecond (ho.endsClock g), offset_spelled ho,
        trimStart_gap hg]
      rfl
    · rfl

theorem read_spelled (hx : x.Known) : read w = resolve x.date x.clock (x.ahead * 60) := by
  obtain ⟨hlow, hhigh⟩ := hx
  rw [read_parts h, if_pos ⟨by omega, by omega⟩]

theorem read_unknown (hx : ¬ x.Known) : read w = .error .outOfRange := by
  rw [read_parts h]
  split
  · apply if_pos
    unfold LocalTime.Known at hx
    omega
  · rfl

end

end MailDispatch.Time.Reader
