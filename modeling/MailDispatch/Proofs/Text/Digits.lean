import Mathlib.Algebra.Group.Nat.Defs
import MailDispatch.Text.Classes
import MailDispatch.Text.Numeral

/-! # The digits of a number

A number is written with decimal digits only, with no zero in front, and with zeros on the
left where it must fill a width. What is read in several steps gives a result only if every step
does.
-/
namespace MailDispatch

/-! ## Results of several steps -/

section
variable {ε α β : Type}

theorem ok_of_bind {x : Except ε α} {f : α → Except ε β} {b : β} (h : x >>= f = .ok b) :
    ∃ a, x = .ok a ∧ f a = .ok b := by
  cases x with
  | error e => cases h
  | ok a => exact ⟨a, rfl, h⟩

theorem bind_eq_ok_iff {x : Except ε α} {f : α → Except ε β} {b : β} :
    x >>= f = .ok b ↔ ∃ a, x = .ok a ∧ f a = .ok b := by
  constructor
  · exact ok_of_bind
  · rintro ⟨a, rfl, h⟩
    exact h

theorem ok_of_map {x : Except ε α} {f : α → β} {b : β} (h : x.map f = .ok b) :
    ∃ a, x = .ok a ∧ f a = b := by
  cases x with
  | error e => cases h
  | ok a => exact ⟨a, rfl, Except.ok.inj h⟩

theorem pure_eq_ok_iff {a b : α} : (pure a : Except ε α) = .ok b ↔ a = b :=
  ⟨Except.ok.inj, congrArg Except.ok⟩

theorem toOption_eq_some_iff {x : Except ε α} {a : α} : x.toOption = some a ↔ x = .ok a := by
  cases x <;> simp [Except.toOption]

end

/-! ## Digits -/

namespace Text.Numeral

/-- What holds of the ten digits holds of every character of a number. -/
theorem of_mem_ofNat {P : Char → Prop} (h : ∀ d : Fin 10, P (Nat.digitChar d.val)) {n : Nat}
    {c : Char} (hc : c ∈ ofNat n) : P c := by
  induction n using Nat.strongRecOn with
  | ind n ih =>
    by_cases hn : n < 10
    · rw [ofNat, Nat.toDigits_of_lt_base hn, List.mem_singleton] at hc
      rw [hc]
      exact h ⟨n, hn⟩
    · rw [ofNat, Nat.toDigits_of_base_le (by decide) (Nat.not_lt.mp hn), List.mem_append] at hc
      rcases hc with hc | hc
      · exact ih (n / 10) (by omega) hc
      · rw [List.mem_singleton.mp hc]
        exact h ⟨n % 10, Nat.mod_lt _ (by decide)⟩

theorem of_mem_padded {P : Char → Prop} (h : ∀ d : Fin 10, P (Nat.digitChar d.val))
    {width n : Nat} {c : Char} (hc : c ∈ padded width n) : P c := by
  rcases List.mem_append.mp hc with hc | hc
  · rw [List.eq_of_mem_replicate hc]
    exact h 0
  · exact of_mem_ofNat h hc

/-- Only the number zero begins with the digit zero. -/
theorem exists_ofNat_cons {n : Nat} (h : 0 < n) :
    ∃ d cs, ofNat n = Nat.digitChar d :: cs ∧ 0 < d ∧ d < 10 := by
  induction n using Nat.strongRecOn with
  | ind n ih =>
    by_cases hn : n < 10
    · exact ⟨n, [], Nat.toDigits_of_lt_base hn, h, hn⟩
    · obtain ⟨d, cs, hcs, hd⟩ := ih (n / 10) (by omega) (by omega)
      rw [ofNat] at hcs
      refine ⟨d, cs ++ [Nat.digitChar (n % 10)], ?_, hd⟩
      rw [ofNat, Nat.toDigits_of_base_le (by decide) (Nat.not_lt.mp hn), hcs]
      rfl

theorem length_ofNat_le {width n : Nat} (h : n < 10 ^ (width + 1)) :
    (ofNat n).length ≤ width + 1 := by
  induction width generalizing n with
  | zero =>
    have hn : n < 10 := by omega
    rw [ofNat, Nat.toDigits_of_lt_base hn]
    exact Nat.le_refl 1
  | succ width ih =>
    by_cases hn : n < 10
    · rw [ofNat, Nat.toDigits_of_lt_base hn]
      exact Nat.le_add_left 1 _
    · have hquotient : n / 10 < 10 ^ (width + 1) := by
        rw [Nat.pow_succ] at h
        omega
      have hfirst := ih hquotient
      rw [ofNat] at hfirst
      rw [ofNat, Nat.toDigits_of_base_le (by decide) (Nat.not_lt.mp hn), List.length_append]
      exact Nat.succ_le_succ hfirst

theorem length_padded {width n : Nat} (h : n < 10 ^ (width + 1)) :
    (padded (width + 1) n).length = width + 1 := by
  have hdigits := length_ofNat_le h
  rw [padded, List.length_append, List.length_replicate]
  omega

theorem exists_padded_cons (width n : Nat) : ∃ c cs, padded width n = c :: cs := by
  cases h : padded width n with
  | nil =>
    obtain ⟨-, hdigits⟩ := List.append_eq_nil_iff.mp h
    exact absurd hdigits Nat.toDigits_ne_nil
  | cons c cs => exact ⟨c, cs, rfl⟩

/-! ## Rows of digits -/

/-- The value of a row of digits, behind others with a given value. -/
def valueFrom (value : Nat) (w : List Char) : Nat :=
  w.foldl (fun n c => n * 10 + (digit? c).getD 0) value

/-- A row of digits and the number that it stands for. There may be zeros in front. -/
structure IsNumeral (n : Nat) (w : List Char) : Prop where
  nonempty : w ≠ []
  digits : ∀ c ∈ w, (digit? c).isSome = true
  value : valueFrom 0 w = n

theorem exists_digitChar {c : Char} {d : Nat} (h : digit? c = some d) :
    d < 10 ∧ c = Nat.digitChar d := by
  unfold digit? at h
  split at h
  · next hc =>
    obtain rfl := Option.some.inj h
    have hlow : 48 ≤ c.toNat := hc.1
    have hhigh : c.toNat ≤ 57 := hc.2
    have hall : ∀ k : Fin 10, Char.ofNat (48 + k.val) = Nat.digitChar k.val := by decide
    have hchar := hall ⟨c.toNat - 48, by omega⟩
    dsimp only at hchar
    rw [Nat.add_sub_cancel' hlow, Char.ofNat_toNat] at hchar
    exact ⟨by omega, hchar⟩
  · cases h

/-- What holds of the ten digits holds of every character that is read as one. -/
theorem of_digit? {P : Char → Prop} (h : ∀ d : Fin 10, P (Nat.digitChar d.val)) {c : Char}
    (hc : (digit? c).isSome = true) : P c := by
  obtain ⟨d, hd⟩ := Option.isSome_iff_exists.mp hc
  obtain ⟨hlt, rfl⟩ := exists_digitChar hd
  exact h ⟨d, hlt⟩

theorem digit?_eq_none_of_isBlank {c : Char} (h : isBlank c = true) : digit? c = none := by
  cases hc : digit? c with
  | none => rfl
  | some d =>
    have hdigit : isBlank c = false :=
      of_digit? (P := fun c => isBlank c = false) (by decide) (by rw [hc]; rfl)
    rw [hdigit] at h
    cases h

theorem le_valueFrom (value : Nat) (w : List Char) : value ≤ valueFrom value w := by
  induction w generalizing value with
  | nil => exact Nat.le_refl _
  | cons c w ih => exact Nat.le_trans (by omega) (ih (value * 10 + (digit? c).getD 0))

theorem valueFrom_append (value : Nat) (v w : List Char) :
    valueFrom value (v ++ w) = valueFrom (valueFrom value v) w :=
  List.foldl_append

theorem valueFrom_eq (value : Nat) (w : List Char) :
    valueFrom value w = value * 10 ^ w.length + valueFrom 0 w := by
  induction w generalizing value with
  | nil => simp [valueFrom]
  | cons c w ih =>
    have hcons : ∀ n, valueFrom n (c :: w) = valueFrom (n * 10 + (digit? c).getD 0) w := fun _ => rfl
    rw [hcons, hcons, ih, ih (0 * 10 + _), List.length_cons, Nat.pow_succ, Nat.add_mul, Nat.add_mul]
    simp only [Nat.zero_mul, Nat.zero_add, Nat.mul_assoc, Nat.add_assoc, Nat.mul_comm 10]

theorem valueFrom_lt {w : List Char} (h : ∀ c ∈ w, (digit? c).isSome = true) :
    valueFrom 0 w < 10 ^ w.length := by
  induction w with
  | nil => decide
  | cons c w ih =>
    have hc : (digit? c).getD 0 ≤ 9 := by
      obtain ⟨d, hd⟩ := Option.isSome_iff_exists.mp (h c List.mem_cons_self)
      rw [hd]
      exact Nat.le_of_lt_succ (exists_digitChar hd).1
    have hrest := ih fun c hc => h c (List.mem_cons_of_mem _ hc)
    have hcons : valueFrom 0 (c :: w) = valueFrom (0 * 10 + (digit? c).getD 0) w := rfl
    rw [hcons, valueFrom_eq, List.length_cons, Nat.pow_succ]
    calc (0 * 10 + (digit? c).getD 0) * 10 ^ w.length + valueFrom 0 w
        < 9 * 10 ^ w.length + 10 ^ w.length := by
          apply Nat.add_lt_add_of_le_of_lt _ hrest
          apply Nat.mul_le_mul_right
          omega
      _ = 10 ^ w.length * 10 := by omega

theorem IsNumeral.lt {n : Nat} {w : List Char} (h : IsNumeral n w) : n < 10 ^ w.length := by
  rw [← h.value]
  exact valueFrom_lt h.digits

theorem IsNumeral.exists_cons {n : Nat} {w : List Char} (h : IsNumeral n w) :
    ∃ c cs, w = c :: cs ∧ (digit? c).isSome = true := by
  cases w with
  | nil => exact absurd rfl h.nonempty
  | cons c cs => exact ⟨c, cs, rfl, h.digits c List.mem_cons_self⟩

theorem valueFrom_zeros (k : Nat) : valueFrom 0 (List.replicate k '0') = 0 := by
  induction k with
  | zero => rfl
  | succ k ih => exact ih

theorem valueFrom_ofNat (n : Nat) : valueFrom 0 (ofNat n) = n := by
  induction n using Nat.strongRecOn with
  | ind n ih =>
    by_cases hn : n < 10
    · have hdigit := digit?_digitChar hn
      rw [ofNat, Nat.toDigits_of_lt_base hn]
      simp [valueFrom, hdigit]
    · have hdigit := digit?_digitChar (Nat.mod_lt n (by decide : 0 < 10))
      have hfirst := ih (n / 10) (by omega)
      rw [ofNat] at hfirst
      rw [ofNat, Nat.toDigits_of_base_le (by decide) (Nat.not_lt.mp hn), valueFrom_append, hfirst]
      simp only [valueFrom, List.foldl_cons, List.foldl_nil, hdigit, Option.getD_some]
      exact Nat.div_add_mod' n 10

theorem isNumeral_padded (width n : Nat) : IsNumeral n (padded width n) where
  nonempty := by
    obtain ⟨c, cs, hcs⟩ := exists_padded_cons width n
    rw [hcs]
    exact List.cons_ne_nil c cs
  digits c hc := of_mem_padded (P := fun c => (digit? c).isSome = true) (by decide) hc
  value := by rw [padded, valueFrom_append, valueFrom_zeros, valueFrom_ofNat]

end Text.Numeral

end MailDispatch
