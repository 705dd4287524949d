/-! # Decimal integers within bounds

A numeral is an optional sign and decimal digits. The reader goes from left to
right and reports the first problem: a character that is no digit, or the digit at
which the value leaves the bounds.
-/
namespace MailDispatch.Text.Numeral

inductive Problem where
  | empty
  | notADigit
  | tooLarge
  | tooSmall
  deriving DecidableEq, Repr

def Problem.message : Problem → String
  | .empty => "cannot parse integer from empty string"
  | .notADigit => "invalid digit found in string"
  | .tooLarge => "number too large to fit in target type"
  | .tooSmall => "number too small to fit in target type"

structure Bounds where
  low : Int
  high : Int
  deriving DecidableEq, Repr

def Bounds.int64 : Bounds := ⟨-9223372036854775808, 9223372036854775807⟩

def Bounds.nat64 : Bounds := ⟨0, 18446744073709551615⟩

def Bounds.Contains (b : Bounds) (n : Int) : Prop := b.low ≤ n ∧ n ≤ b.high

instance (b : Bounds) (n : Int) : Decidable (b.Contains n) :=
  inferInstanceAs (Decidable (_ ∧ _))

def digit? (c : Char) : Option Nat :=
  if '0' ≤ c ∧ c ≤ '9' then some (c.toNat - 48) else none

inductive Sign where
  | plus
  | minus
  deriving DecidableEq, Repr

/-- The value with one more digit, away from zero. -/
def Sign.extend (s : Sign) (value : Int) (digit : Nat) : Int :=
  match s with
  | .plus => value * 10 + digit
  | .minus => value * 10 - digit

def Bounds.check (b : Bounds) (n : Int) : Except Problem Int :=
  if n < b.low then .error .tooSmall else if b.high < n then .error .tooLarge else .ok n

def digits (b : Bounds) (s : Sign) : Int → List Char → Except Problem Int
  | value, [] => .ok value
  | value, c :: rest =>
    match digit? c with
    | none => .error .notADigit
    | some d =>
      match b.check (s.extend value d) with
      | .ok next => digits b s next rest
      | .error p => .error p

/-- The value of a numeral. A minus sign is read only where negative values are allowed. -/
def read (b : Bounds) : List Char → Except Problem Int
  | [] => .error .empty
  | ['+'] | ['-'] => .error .notADigit
  | '+' :: rest => digits b .plus 0 rest
  | '-' :: rest => if b.low < 0 then digits b .minus 0 rest else .error .notADigit
  | cs => digits b .plus 0 cs

/-- The digits of a number, most significant first. -/
def ofNat (n : Nat) : List Char := Nat.toDigits 10 n

def ofInt : Int → List Char
  | .ofNat n => ofNat n
  | .negSucc n => '-' :: ofNat (n + 1)

def text (n : Int) : String := String.ofList (ofInt n)

/-- The digits of a number, filled up with zeros on the left. -/
def padded (width : Nat) (n : Nat) : List Char :=
  let ds := ofNat n
  List.replicate (width - ds.length) '0' ++ ds

/-! ## Reading what is written -/

theorem Bounds.check_eq_ok_iff {b : Bounds} {n m : Int} :
    b.check n = .ok m ↔ b.Contains n ∧ m = n := by
  unfold check Contains
  constructor
  · intro h
    split at h
    · simp at h
    · split at h
      · simp at h
      · exact ⟨by omega, by simpa [eq_comm] using h⟩
  · rintro ⟨⟨hl, hh⟩, rfl⟩
    rw [if_neg (by omega), if_neg (by omega)]

theorem digit?_digitChar {d : Nat} (h : d < 10) : digit? (Nat.digitChar d) = some d := by
  have : ∀ d : Fin 10, digit? (Nat.digitChar d.val) = some d.val := by decide
  exact this ⟨d, h⟩

theorem digits_append (b : Bounds) (s : Sign) (v : Int) (xs ys : List Char) :
    digits b s v (xs ++ ys) = (digits b s v xs).bind fun w => digits b s w ys := by
  induction xs generalizing v with
  | nil => rfl
  | cons c rest ih =>
    simp only [List.cons_append, digits]
    cases digit? c with
    | none => rfl
    | some d =>
      dsimp only
      cases b.check (s.extend v d) with
      | error p => rfl
      | ok w => exact ih w

def Sign.apply : Sign → Nat → Int
  | .plus, n => n
  | .minus, n => -n

/-- The digits of a number are read as that number, if its value lies within the bounds. -/
theorem digits_ofNat {b : Bounds} {s : Sign} (hz : b.Contains 0) {n : Nat}
    (h : b.Contains (s.apply n)) : digits b s 0 (ofNat n) = .ok (s.apply n) := by
  induction n using Nat.strongRecOn with
  | ind n ih =>
    by_cases hn : n < 10
    · have hv : s.extend 0 n = s.apply n := by cases s <;> simp [Sign.extend, Sign.apply]
      rw [ofNat, Nat.toDigits_of_lt_base hn]
      simp only [digits, digit?_digitChar hn, hv, Bounds.check_eq_ok_iff.mpr ⟨h, rfl⟩]
    · have hq : b.Contains (s.apply (n / 10)) := by
        unfold Bounds.Contains at *
        cases s <;> simp only [Sign.apply] at * <;> omega
      have hv : s.extend (s.apply (n / 10)) (n % 10) = s.apply n := by
        cases s <;> simp only [Sign.extend, Sign.apply] <;> omega
      rw [ofNat, Nat.toDigits_of_base_le (by omega) (by omega), digits_append]
      rw [show digits b s 0 (Nat.toDigits 10 (n / 10)) = _ from ih (n / 10) (by omega) hq]
      simp only [Except.bind, digits, digit?_digitChar (Nat.mod_lt n (by omega : 0 < 10)), hv,
        Bounds.check_eq_ok_iff.mpr ⟨h, rfl⟩]

theorem not_sign_of_mem_ofNat {n : Nat} {c : Char} (h : c ∈ ofNat n) : c ≠ '+' ∧ c ≠ '-' := by
  have hd := Nat.isDigit_of_mem_toDigits (by decide) (by decide) h
  constructor <;> rintro rfl <;> simp at hd

theorem read_ofNat (b : Bounds) (n : Nat) : read b (ofNat n) = digits b .plus 0 (ofNat n) := by
  have hs : ∀ c ∈ ofNat n, c ≠ '+' ∧ c ≠ '-' := fun c hc => not_sign_of_mem_ofNat hc
  have hne : ofNat n ≠ [] := Nat.toDigits_ne_nil
  unfold read
  split
  · next h => exact absurd h hne
  · next h => exact absurd rfl (hs '+' (by simp [h])).1
  · next h => exact absurd rfl (hs '-' (by simp [h])).2
  · next h => exact absurd rfl (hs '+' (by simp [h])).1
  · next h => exact absurd rfl (hs '-' (by simp [h])).2
  · rfl

/-- Every value within the bounds is read from its shortest numeral. -/
theorem read_ofInt {b : Bounds} (hz : b.Contains 0) {n : Int} (h : b.Contains n) :
    read b (ofInt n) = .ok n := by
  cases n with
  | ofNat n => exact (read_ofNat b n).trans (digits_ofNat (s := .plus) hz h)
  | negSucc n =>
    have hl : b.low < 0 := by unfold Bounds.Contains at h; omega
    have hd : digits b .minus 0 (ofNat (n + 1)) = .ok (Int.negSucc n) :=
      digits_ofNat (s := .minus) hz h
    have hne : ofNat (n + 1) ≠ [] := Nat.toDigits_ne_nil
    rw [ofInt]
    unfold read
    split
    · next he => simp at he
    · next he => simp at he
    · next he => simp_all
    · next he => simp at he
    · next he =>
      obtain rfl := (List.cons.inj he).2
      rw [if_pos hl]; exact hd
    · next he => exact absurd rfl (he _)

end MailDispatch.Text.Numeral
