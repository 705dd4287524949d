import Mathlib.Data.List.Induction
import MailDispatch.Text.Numeral

/-! # What numerals denote

A numeral is a row of decimal digits with at most one sign in front. Within bounds that allow
negative numbers the reader accepts every numeral whose number lies within them. Of any other text
it reports what is wrong first, from the left.
-/
namespace MailDispatch.Text.Numeral

/-! ## Numerals -/

/-- A text is taken apart into its sign and what follows. Without a sign it counts as positive. -/
inductive Signed : Sign → List Char → List Char → Prop where
  | bare {w : List Char} (h : ∀ c ∈ w.head?, c ≠ '+' ∧ c ≠ '-') : Signed .plus w w
  | plus (w : List Char) : Signed .plus w ('+' :: w)
  | minus (w : List Char) : Signed .minus w ('-' :: w)

/-- The text is a numeral of the number. There may be zeros in front of its digits. -/
def Denotes (w : List Char) (v : Int) : Prop :=
  ∃ s row, Signed s row w ∧ row ≠ [] ∧ (∀ c ∈ row, c.isDigit = true) ∧
    v = s.apply (Nat.ofDigitChars 10 row 0)

/-! ## What can be wrong -/

/-- How a number leaves the bounds that grows away from zero. -/
def Sign.overflow : Sign → Problem
  | .plus => .tooLarge
  | .minus => .tooSmall

/-- A row, which may be empty, that holds digits only and has a number within the bounds. -/
structure Fits (b : Bounds) (s : Sign) (row : List Char) : Prop where
  digits : ∀ c ∈ row, c.isDigit = true
  within : b.Contains (s.apply (Nat.ofDigitChars 10 row 0))

/-- Behind a row that fits there is a character that is no digit, or the digit at which the number
leaves the bounds. -/
inductive Stops (b : Bounds) (s : Sign) : List Char → Problem → Prop where
  | notADigit {row rest : List Char} {c : Char} (fits : Fits b s row) (h : c.isDigit = false) :
    Stops b s (row ++ c :: rest) .notADigit
  | overflows {row rest : List Char} {c : Char} (fits : Fits b s row) (hdigit : c.isDigit = true)
    (h : ¬ b.Contains (s.apply (Nat.ofDigitChars 10 (row ++ [c]) 0))) :
    Stops b s (row ++ c :: rest) s.overflow

/-- The first thing, from the left, for which a text is no numeral of a number within the bounds. A
sign with nothing behind it counts as a character that is no digit. -/
inductive FirstProblem (b : Bounds) : List Char → Problem → Prop where
  | empty : FirstProblem b [] .empty
  | loneSign {s : Sign} {c : Char} (h : Signed s [] [c]) : FirstProblem b [c] .notADigit
  | stops {s : Sign} {row w : List Char} {p : Problem} (h : Signed s row w) (stops : Stops b s row p) :
    FirstProblem b w p

theorem Signed.exists (w : List Char) : ∃ s row, Signed s row w := by
  cases w with
  | nil => exact ⟨.plus, [], .bare (by simp)⟩
  | cons c w =>
    by_cases hplus : c = '+'
    · exact ⟨.plus, w, hplus ▸ .plus w⟩
    · by_cases hminus : c = '-'
      · exact ⟨.minus, w, hminus ▸ .minus w⟩
      · refine ⟨.plus, c :: w, .bare fun d hd => ?_⟩
        obtain rfl := Option.some.inj hd
        exact ⟨hplus, hminus⟩

theorem firstProblem_empty_iff {b : Bounds} {w : List Char} : FirstProblem b w .empty ↔ w = [] := by
  have hstops : ∀ s row, ¬ Stops b s row .empty := by
    intro s row h
    generalize hp : Problem.empty = p at h
    cases h with
    | notADigit fits h => cases hp
    | overflows fits hdigit h => cases s <;> cases hp
  constructor
  · intro h
    cases h with
    | empty => rfl
    | stops h stops => exact absurd stops (hstops _ _)
  · rintro rfl
    exact .empty

/-! ## Rows of digits -/

section
variable {b : Bounds} {s : Sign}

theorem isDigit_iff {c : Char} : c.isDigit = true ↔ '0' ≤ c ∧ c ≤ '9' := by
  simp only [Char.isDigit, Bool.and_eq_true, decide_eq_true_eq]
  rfl

theorem digit?_of_isDigit {c : Char} (h : c.isDigit = true) :
    digit? c = some (c.toNat - '0'.toNat) :=
  if_pos (isDigit_iff.mp h)

theorem digit?_of_not_isDigit {c : Char} (h : c.isDigit = false) : digit? c = none := by
  refine if_neg fun hdigit => ?_
  rw [isDigit_iff.mpr hdigit] at h
  cases h

theorem Sign.extend_apply (s : Sign) (n d : Nat) : s.extend (s.apply n) d = s.apply (10 * n + d) := by
  cases s <;> simp only [Sign.extend, Sign.apply] <;> omega

theorem Bounds.Contains.mono (hz : b.Contains 0) {m n : Nat} (hmn : m ≤ n)
    (h : b.Contains (s.apply n)) : b.Contains (s.apply m) := by
  unfold Bounds.Contains at *
  cases s <;> simp only [Sign.apply] at * <;> omega

/-- A number that grows away from zero leaves the bounds on the side of its sign. -/
theorem check_of_not_contains (hz : b.Contains 0) {n : Nat} (h : ¬ b.Contains (s.apply n)) :
    b.check (s.apply n) = .error s.overflow := by
  obtain ⟨hlow, hhigh⟩ := hz
  cases s with
  | plus =>
    have hfits : ¬ Sign.plus.apply n < b.low := Int.not_lt.mpr (Int.le_trans hlow (Int.natCast_nonneg n))
    have hlarge : b.high < Sign.plus.apply n := by
      refine Int.not_le.mp fun hle => h ⟨Int.not_lt.mp hfits, hle⟩
    rw [Bounds.check, if_neg hfits, if_pos hlarge]
    rfl
  | minus =>
    have hfits : Sign.minus.apply n ≤ b.high :=
      Int.le_trans (Int.neg_nonpos_of_nonneg (Int.natCast_nonneg n)) hhigh
    have hsmall : Sign.minus.apply n < b.low := by
      refine Int.not_le.mp fun hle => h ⟨hle, hfits⟩
    rw [Bounds.check, if_pos hsmall]
    rfl

theorem ofDigitChars_concat (row : List Char) (c : Char) :
    Nat.ofDigitChars 10 (row ++ [c]) 0 =
      10 * Nat.ofDigitChars 10 row 0 + (c.toNat - '0'.toNat) := by
  rw [Nat.ofDigitChars_append, Nat.ofDigitChars_cons, Nat.ofDigitChars_nil]

theorem Fits.init (hz : b.Contains 0) {row : List Char} {c : Char} (h : Fits b s (row ++ [c])) :
    Fits b s row := by
  refine ⟨fun d hd => h.digits d (List.mem_append_left _ hd), hz.mono ?_ h.within⟩
  rw [ofDigitChars_concat]
  omega

theorem Stops.append {row : List Char} {p : Problem} (h : Stops b s row p) (more : List Char) :
    Stops b s (row ++ more) p := by
  cases h with
  | notADigit fits h =>
    rw [List.append_assoc]
    exact .notADigit fits h
  | overflows fits hdigit h =>
    rw [List.append_assoc]
    exact .overflows fits hdigit h

theorem fits_or_stops (hz : b.Contains 0) (s : Sign) (row : List Char) :
    Fits b s row ∨ ∃ p, Stops b s row p := by
  -- from the right: a row stops where its part in front does, or else at its last character
  induction row using List.reverseRecOn with
  | nil => exact .inl ⟨by simp, by cases s <;> exact hz⟩
  | append_singleton row c ih =>
    rcases ih with fits | ⟨p, stops⟩
    · by_cases hdigit : c.isDigit = true
      · by_cases hwithin : b.Contains (s.apply (Nat.ofDigitChars 10 (row ++ [c]) 0))
        · refine .inl ⟨?_, hwithin⟩
          rw [List.forall_mem_append]
          exact ⟨fits.digits, by simpa using hdigit⟩
        · exact .inr ⟨_, .overflows fits hdigit hwithin⟩
      · exact .inr ⟨_, .notADigit fits (by simpa using hdigit)⟩
    · exact .inr ⟨p, stops.append [c]⟩

/-- What comes behind a row that was read is read from its number on. -/
theorem digits_append_of_ok {row rest : List Char} {v : Int} (h : digits b s 0 row = .ok v) :
    digits b s 0 (row ++ rest) = digits b s v rest := by
  rw [digits_append, h]
  rfl

theorem digits_of_fits (hz : b.Contains 0) {row : List Char} (h : Fits b s row) :
    digits b s 0 row = .ok (s.apply (Nat.ofDigitChars 10 row 0)) := by
  -- the bounds are checked after every digit, and what fits has only parts that fit
  induction row using List.reverseRecOn with
  | nil => cases s <;> rfl
  | append_singleton row c ih =>
    have hwithin := h.within
    rw [ofDigitChars_concat] at hwithin
    rw [digits_append_of_ok (ih (h.init hz)), ofDigitChars_concat]
    simp only [digits, digit?_of_isDigit (h.digits c (by simp)), Sign.extend_apply,
      Bounds.check_eq_ok_iff.mpr ⟨hwithin, rfl⟩]

theorem digits_of_stops (hz : b.Contains 0) {row : List Char} {p : Problem} (h : Stops b s row p) :
    digits b s 0 row = .error p := by
  cases h with
  | notADigit fits h =>
    rw [digits_append_of_ok (digits_of_fits hz fits)]
    simp only [digits, digit?_of_not_isDigit h]
  | overflows fits hdigit h =>
    rw [ofDigitChars_concat] at h
    rw [digits_append_of_ok (digits_of_fits hz fits)]
    simp only [digits, digit?_of_isDigit hdigit, Sign.extend_apply, check_of_not_contains hz h]

end

/-! ## The reader -/

section
variable {b : Bounds} {w : List Char}

/-- A sign, or none, is passed over if anything follows. -/
theorem read_of_signed (hneg : b.low < 0) {s : Sign} {row : List Char} (h : Signed s row w)
    (hrow : row ≠ []) : read b w = digits b s 0 row := by
  cases h with
  | bare h =>
    cases w with
    | nil => exact absurd rfl hrow
    | cons c w =>
      obtain ⟨hplus, hminus⟩ := h c rfl
      unfold read
      split <;> simp_all
  | plus =>
    cases row with
    | nil => exact absurd rfl hrow
    | cons c row => rfl
  | minus =>
    cases row with
    | nil => exact absurd rfl hrow
    | cons c row => exact if_pos hneg

theorem read_of_denotes (hneg : b.low < 0) (hz : b.Contains 0) {v : Int} (h : Denotes w v)
    (hv : b.Contains v) : read b w = .ok v := by
  obtain ⟨s, row, hsigned, hrow, hdigits, rfl⟩ := h
  rw [read_of_signed hneg hsigned hrow, digits_of_fits hz ⟨hdigits, hv⟩]

theorem read_of_firstProblem (hneg : b.low < 0) (hz : b.Contains 0) {p : Problem}
    (h : FirstProblem b w p) : read b w = .error p := by
  cases h with
  | empty => rfl
  | loneSign h =>
    cases h with
    | plus | minus => rfl
  | stops h stops =>
    rw [read_of_signed hneg h ?_, digits_of_stops hz stops]
    cases stops <;> simp

theorem denotes_or_firstProblem (hz : b.Contains 0) (w : List Char) :
    (∃ v, Denotes w v ∧ b.Contains v) ∨ ∃ p, FirstProblem b w p := by
  obtain ⟨s, row, hsigned⟩ := Signed.exists w
  rcases fits_or_stops hz s row with fits | ⟨p, stops⟩
  · by_cases hrow : row = []
    · subst hrow
      cases hsigned with
      | bare => exact .inr ⟨_, .empty⟩
      | plus => exact .inr ⟨_, .loneSign (.plus [])⟩
      | minus => exact .inr ⟨_, .loneSign (.minus [])⟩
    · exact .inl ⟨_, ⟨s, row, hsigned, hrow, fits.digits, rfl⟩, fits.within⟩
  · exact .inr ⟨p, .stops hsigned stops⟩

theorem read_eq_ok_iff (hneg : b.low < 0) (hz : b.Contains 0) {v : Int} :
    read b w = .ok v ↔ Denotes w v ∧ b.Contains v := by
  constructor
  · intro h
    rcases denotes_or_firstProblem hz w with ⟨u, hu, hcontains⟩ | ⟨p, hp⟩
    · obtain rfl := Except.ok.inj ((read_of_denotes hneg hz hu hcontains).symm.trans h)
      exact ⟨hu, hcontains⟩
    · cases (read_of_firstProblem hneg hz hp).symm.trans h
  · rintro ⟨hv, hcontains⟩
    exact read_of_denotes hneg hz hv hcontains

theorem read_eq_error_iff (hneg : b.low < 0) (hz : b.Contains 0) {p : Problem} :
    read b w = .error p ↔ FirstProblem b w p := by
  constructor
  · intro h
    rcases denotes_or_firstProblem hz w with ⟨v, hv, hcontains⟩ | ⟨q, hq⟩
    · cases (read_of_denotes hneg hz hv hcontains).symm.trans h
    · obtain rfl := Except.error.inj ((read_of_firstProblem hneg hz hq).symm.trans h)
      exact hq
  · exact read_of_firstProblem hneg hz

end

end MailDispatch.Text.Numeral
