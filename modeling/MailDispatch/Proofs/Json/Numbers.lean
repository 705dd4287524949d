import MailDispatch.Json.Record
import MailDispatch.Proofs.Text.Digits
import MailDispatch.Proofs.Text.Octets

/-! # Written numbers read back

A whole number is written with the digits of its absolute value, most significant first and
without a zero in front. The reader gathers them in a significand, which fits as long as the
number has 64 bits, and stops at the first octet that cannot go on with a number.
-/
namespace MailDispatch.Json
open Text Octets Numeral

/-! ## Digits -/

theorem isDigit_digitChar {d : Nat} (h : d < 10) : isDigit (ofAscii (Nat.digitChar d)) = true := by
  have hall : ∀ d : Fin 10, isDigit (ofAscii (Nat.digitChar d.val)) = true := by decide
  exact hall ⟨d, h⟩

theorem digitValue_digitChar {d : Nat} (h : d < 10) :
    digitValue (ofAscii (Nat.digitChar d)) = d := by
  have hall : ∀ d : Fin 10, digitValue (ofAscii (Nat.digitChar d.val)) = d.val := by decide
  exact hall ⟨d, h⟩

theorem ascii_of_mem_ofNat {n : Nat} {c : Char} (h : c ∈ ofNat n) : c.toNat ≤ 127 :=
  of_mem_ofNat (P := fun c => c.toNat ≤ 127) (by decide) h

theorem ofChars_ofNat (n : Nat) : ofChars (ofNat n) = (ofNat n).map ofAscii :=
  ofChars_of_ascii fun _ => ascii_of_mem_ofNat

theorem isDigit_of_mem_ofChars {n : Nat} {b : UInt8} (h : b ∈ ofChars (ofNat n)) :
    isDigit b = true := by
  rw [ofChars_ofNat] at h
  obtain ⟨c, hc, rfl⟩ := List.mem_map.mp h
  exact of_mem_ofNat (P := fun c => isDigit (ofAscii c) = true) (by decide) hc

theorem exists_ofChars_ofNat (n : Nat) :
    ∃ b bs, ofChars (ofNat n) = b :: bs ∧ isDigit b = true := by
  cases h : ofChars (ofNat n) with
  | nil =>
    rw [ofChars_ofNat] at h
    exact absurd (List.map_eq_nil_iff.mp h) Nat.toDigits_ne_nil
  | cons b bs => exact ⟨b, bs, rfl, isDigit_of_mem_ofChars (n := n) (by simp [h])⟩

/-! ## Significands -/

theorem extend_append {v w : Nat} {xs : List UInt8} (h : extend v xs = (w, [])) (ys : List UInt8) :
    extend v (xs ++ ys) = extend w ys := by
  induction xs generalizing v with
  | nil =>
    obtain ⟨rfl, -⟩ := Prod.mk.inj h
    rfl
  | cons b xs ih =>
    simp only [extend, List.cons_append] at h ⊢
    split
    · next hfits =>
      rw [if_pos hfits] at h
      exact ih h
    · next hlarge =>
      rw [if_neg hlarge] at h
      cases (Prod.mk.inj h).2

theorem extend_ofNat {n : Nat} (h : n ≤ largestSignificand) :
    extend 0 (ofChars (ofNat n)) = (n, []) := by
  have hdigit : ∀ v d : Nat, d < 10 → v * 10 + d ≤ largestSignificand →
      extend v [ofAscii (Nat.digitChar d)] = (v * 10 + d, []) := by
    intro v d hd hfits
    simp only [extend, digitValue_digitChar hd, if_pos hfits]
  rw [ofChars_ofNat]
  induction n using Nat.strongRecOn with
  | ind n ih =>
    by_cases hn : n < 10
    · rw [ofNat, Nat.toDigits_of_lt_base hn, List.map_singleton, hdigit 0 n hn (by omega)]
      simp
    · have hsplit : n / 10 * 10 + n % 10 = n := Nat.div_add_mod' n 10
      have hfirst := ih (n / 10) (by omega) (by omega)
      rw [ofNat] at hfirst
      rw [ofNat, Nat.toDigits_of_base_le (by decide) (Nat.not_lt.mp hn), List.map_append,
        extend_append hfirst, List.map_singleton,
        hdigit _ _ (Nat.mod_lt _ (by decide)) (by omega), hsplit]

/-! ## Numbers -/

/-- What comes next does not belong to a number. -/
def EndsNumber (rest : Octets) : Prop :=
  ∀ b ∈ rest.head?, isDigit b = false ∧ b ≠ 46 ∧ isExponentMark b = false

theorem EndsNumber.span {n : Nat} {rest : Octets} (h : EndsNumber rest) :
    (ofChars (ofNat n) ++ rest).takeWhile isDigit = ofChars (ofNat n) ∧
      (ofChars (ofNat n) ++ rest).dropWhile isDigit = rest := by
  have hdigits : ∀ b ∈ ofChars (ofNat n), isDigit b = true := fun b hb => isDigit_of_mem_ofChars hb
  rw [List.takeWhile_append_of_pos hdigits, List.dropWhile_append_of_pos hdigits]
  cases rest with
  | nil => exact ⟨List.append_nil _, rfl⟩
  | cons b rest =>
    have hb : ¬ isDigit b = true := by simp [(h b rfl).1]
    rw [List.takeWhile_cons_of_neg hb, List.dropWhile_cons_of_neg hb]
    exact ⟨List.append_nil _, rfl⟩

/-- The number with the given sign and absolute value. -/
def signed (negative : Bool) (n : Nat) : Int := if negative then -n else n

theorem numberTail_whole {negative : Bool} {n : Nat} {rest : Octets} (h : EndsNumber rest)
    (hn : negative = true → 0 < n ∧ n ≤ 9223372036854775808) :
    numberTail negative n 0 rest = .ok (.whole (signed negative n), rest) := by
  have hplain : (if 0 < 0 then fractionOf negative n 0 rest
      else if ¬ negative then Except.ok (Numeric.whole n, rest)
      else if n = 0 ∨ 9223372036854775808 < n then fractionOf true n 0 rest
      else .ok (.whole (-n), rest)) = .ok (.whole (signed negative n), rest) := by
    rw [if_neg (Nat.lt_irrefl 0)]
    cases negative with
    | false => rfl
    | true =>
      obtain ⟨hpos, hle⟩ := hn rfl
      have hsmall : ¬ (n = 0 ∨ 9223372036854775808 < n) := by omega
      rw [if_neg (by simp), if_neg hsmall]
      rfl
  cases rest with
  | nil => exact hplain
  | cons b rest =>
    obtain ⟨-, hpoint, hmark⟩ := h b rfl
    simp only [numberTail, if_neg hpoint, hmark]
    exact hplain

theorem unsigned_whole {negative : Bool} {n : Nat} {rest : Octets} (h : EndsNumber rest)
    (hfits : n ≤ largestSignificand)
    (hn : negative = true → 0 < n ∧ n ≤ 9223372036854775808) :
    unsigned negative (ofChars (ofNat n) ++ rest) = .ok (.whole (signed negative n), rest) := by
  obtain ⟨htake, hdrop⟩ := h.span (n := n)
  by_cases hzero : n = 0
  · subst hzero
    have hpositive : negative = false := by
      cases negative with
      | false => rfl
      | true => exact absurd (hn rfl).1 (Nat.lt_irrefl 0)
    subst hpositive
    change unsigned false (48 :: rest) = _
    have htail : numberTail false 0 0 rest = .ok (.whole (signed false 0), rest) :=
      numberTail_whole h (by simp)
    cases rest with
    | nil => exact htail
    | cons b rest =>
      have hb := (h b rfl).1
      simp only [unsigned, if_true, hb]
      exact htail
  · obtain ⟨d, cs, hcs, hpos, hd⟩ := exists_ofNat_cons (Nat.pos_of_ne_zero hzero)
    have hascii : (Nat.digitChar d).toNat ≤ 127 := ascii_of_mem_ofNat (n := n) (by simp [hcs])
    have hoctets : ofChars (ofNat n) = ofAscii (Nat.digitChar d) :: ofChars cs := by
      rw [hcs, ofChars_cons_of_ascii hascii]
    have hdigit := isDigit_digitChar hd
    have hnonzero : ofAscii (Nat.digitChar d) ≠ 48 := by
      intro heq
      have hvalue := digitValue_digitChar hd
      rw [heq] at hvalue
      exact absurd hvalue (Nat.ne_of_lt hpos)
    have hextend := extend_ofNat hfits
    rw [hoctets] at htake hdrop hextend ⊢
    rw [List.cons_append, List.takeWhile_cons_of_pos hdigit] at htake
    rw [List.cons_append, List.dropWhile_cons_of_pos hdigit] at hdrop
    rw [List.cons_append]
    simp only [unsigned, if_neg hnonzero, hdigit, if_true, htake, hdrop, hextend]
    exact numberTail_whole h hn

/-- A written natural is read as that natural if it fits in a significand. -/
theorem number?_ofNat {n : Nat} {rest : Octets} (h : EndsNumber rest)
    (hfits : n ≤ largestSignificand) :
    number? (ofChars (ofNat n) ++ rest) = some (.ok (.whole n, rest)) := by
  have hread : unsigned false (ofChars (ofNat n) ++ rest) = .ok (.whole (signed false n), rest) :=
    unsigned_whole h hfits (by simp)
  obtain ⟨b, bs, hcs, hdigit⟩ := exists_ofChars_ofNat n
  have hminus : b ≠ 45 := by
    rintro rfl
    cases hdigit
  rw [hcs] at hread ⊢
  simp only [List.cons_append, number?, if_neg hminus, hdigit, if_true]
  exact congrArg some hread

/-- A written number is read as that number. -/
theorem number?_written {n : Int} {rest : Octets} (h : EndsNumber rest)
    (hn : Bounds.int64.Contains n) :
    number? (ofChars (ofInt n) ++ rest) = some (.ok (.whole n, rest)) := by
  obtain ⟨hlow, hhigh⟩ : -9223372036854775808 ≤ n ∧ n ≤ 9223372036854775807 := hn
  cases n with
  | ofNat n =>
    have hlarge : (n : Int) ≤ 9223372036854775807 := hhigh
    have hfits : n ≤ largestSignificand := by unfold largestSignificand; omega
    exact number?_ofNat h hfits
  | negSucc n =>
    have hfits : n + 1 ≤ largestSignificand := by unfold largestSignificand; omega
    have hread : unsigned true (ofChars (ofNat (n + 1)) ++ rest) =
        .ok (.whole (signed true (n + 1)), rest) :=
      unsigned_whole h hfits (by omega)
    exact congrArg some hread

theorem wholeNumber_written {n : Int} {rest : Octets} (h : EndsNumber rest)
    (hn : Bounds.int64.Contains n) :
    wholeNumber (ofChars (ofInt n) ++ rest) = .ok (n, rest) := by
  simp only [wholeNumber, number?_written h hn, if_pos hn]

/-- Whatever is read as a number of a record lies within 64 bits. -/
theorem contains_of_wholeNumber {s rest : Octets} {n : Int} (h : wholeNumber s = .ok (n, rest)) :
    Bounds.int64.Contains n := by
  unfold wholeNumber at h
  split at h
  · split at h
    · next hn =>
      obtain ⟨rfl, -⟩ := Prod.mk.inj (Except.ok.inj h)
      exact hn
    · cases h
  all_goals cases h

/-! ## The only spelling of a number -/

theorem fractionOf_ne_whole {negative : Bool} {significand : Nat} {exponent n : Int}
    {s rest : Octets} : fractionOf negative significand exponent s ≠ .ok (.whole n, rest) := by
  unfold fractionOf
  split
  · intro h
    cases h
  · intro h
    cases h

theorem exponent_ne_whole {negative : Bool} {significand : Nat} {start n : Int}
    {s rest : Octets} : exponent negative significand start s ≠ .ok (.whole n, rest) := by
  unfold exponent
  split
  · split
    · intro h
      cases h
    · split
      · split
        · exact fractionOf_ne_whole
        · split
          · intro h
            cases h
          · exact fractionOf_ne_whole
      · intro h
        cases h

theorem decimals_ne_whole {negative : Bool} {significand : Nat} {before n : Int}
    {s rest : Octets} : decimals negative significand before s ≠ .ok (.whole n, rest) := by
  unfold decimals
  dsimp only
  split
  · split
    · intro h
      cases h
    · intro h
      cases h
  · split
    · split
      · exact exponent_ne_whole
      · exact fractionOf_ne_whole
    · exact fractionOf_ne_whole

/-- A number is whole only if nothing of it follows the digits of its whole part, all of which
fit. -/
theorem of_numberTail_whole {negative : Bool} {significand dropped : Nat} {n : Int}
    {s rest : Octets} (h : numberTail negative significand dropped s = .ok (.whole n, rest)) :
    rest = s ∧ dropped = 0 ∧ n = signed negative significand ∧
      (negative = true → 0 < significand) ∧
      ∀ b ∈ s.head?, b ≠ 46 ∧ isExponentMark b = false := by
  have hplain : ∀ t : Octets, (if 0 < dropped then fractionOf negative significand dropped t
      else if ¬ negative then Except.ok (Numeric.whole significand, t)
      else if significand = 0 ∨ 9223372036854775808 < significand then
        fractionOf true significand 0 t
      else .ok (.whole (-significand), t)) = .ok (.whole n, rest) →
      rest = t ∧ dropped = 0 ∧ n = signed negative significand ∧
        (negative = true → 0 < significand) := by
    intro t ht
    split at ht
    · exact absurd ht fractionOf_ne_whole
    · next hdropped =>
      split at ht
      · next hpositive =>
        obtain ⟨hn, rfl⟩ := Prod.mk.inj (Except.ok.inj ht)
        obtain rfl := Numeric.whole.inj hn
        simp only [Bool.not_eq_true] at hpositive
        exact ⟨rfl, by omega, by rw [hpositive]; rfl, by simp [hpositive]⟩
      · next hnegative =>
        split at ht
        · exact absurd ht fractionOf_ne_whole
        · next hsmall =>
          obtain ⟨hn, rfl⟩ := Prod.mk.inj (Except.ok.inj ht)
          obtain rfl := Numeric.whole.inj hn
          simp only [Bool.not_eq_true, Bool.not_eq_false] at hnegative
          exact ⟨rfl, by omega, by rw [hnegative]; rfl, by omega⟩
  cases s with
  | nil =>
    obtain ⟨hrest, hdropped, hn, hpos⟩ := hplain [] h
    exact ⟨hrest, hdropped, hn, hpos, by simp⟩
  | cons b s =>
    unfold numberTail at h
    dsimp only at h
    split at h
    · exact absurd h decimals_ne_whole
    · next hpoint =>
      split at h
      · exact absurd h exponent_ne_whole
      · next hmark =>
        obtain ⟨hrest, hdropped, hn, hpos⟩ := hplain (b :: s) h
        refine ⟨hrest, hdropped, hn, hpos, ?_⟩
        rintro _ ⟨⟩
        exact ⟨hpoint, by simpa using hmark⟩

theorem exists_digitChar {b : UInt8} (h : isDigit b = true) :
    ∃ d, d < 10 ∧ digitValue b = d ∧ ofAscii (Nat.digitChar d) = b := by
  simp only [isDigit, Bool.and_eq_true, decide_eq_true_eq, UInt8.le_iff_toNat_le] at h
  obtain ⟨hlow, hhigh⟩ : 48 ≤ b.toNat ∧ b.toNat ≤ 57 := h
  have hall : ∀ d : Fin 10, (ofAscii (Nat.digitChar d.val)).toNat = 48 + d.val := by decide
  have hvalue := hall ⟨b.toNat - 48, by omega⟩
  refine ⟨b.toNat - 48, by omega, rfl, UInt8.toNat_inj.mp ?_⟩
  rw [hvalue]
  dsimp only
  omega

theorem ofChars_ofNat_extend {v : Nat} (hv : 0 < v) {b : UInt8} (hb : isDigit b = true) :
    ofChars (ofNat (v * 10 + digitValue b)) = ofChars (ofNat v) ++ [b] := by
  obtain ⟨d, hd, hvalue, hchar⟩ := exists_digitChar hb
  have hquotient : (v * 10 + d) / 10 = v := by omega
  have hremainder : (v * 10 + d) % 10 = d := by omega
  rw [hvalue, ofNat, Nat.toDigits_of_base_le (by decide) (by omega), hquotient, hremainder,
    ofChars_append, ofChars_of_ascii (s := [Nat.digitChar d]), List.map_singleton, hchar]
  · rfl
  · intro c hc
    rw [List.mem_singleton.mp hc]
    have hall : ∀ d : Fin 10, (Nat.digitChar d.val).toNat ≤ 127 := by decide
    exact hall ⟨d, hd⟩

/-- Digits that all fit behind a significand are those of the number that they make with it. -/
theorem ofChars_ofNat_of_extend {v w : Nat} {ds : Octets} (h : extend v ds = (w, []))
    (hv : 0 < v) (hds : ∀ b ∈ ds, isDigit b = true) :
    ofChars (ofNat w) = ofChars (ofNat v) ++ ds := by
  induction ds generalizing v with
  | nil =>
    obtain ⟨rfl, -⟩ := Prod.mk.inj h
    rw [List.append_nil]
  | cons b ds ih =>
    simp only [extend] at h
    split at h
    · have hb := hds b List.mem_cons_self
      have hmore := ih h (by omega) fun c hc => hds c (List.mem_cons_of_mem b hc)
      rw [hmore, ofChars_ofNat_extend hv hb, List.append_assoc, List.singleton_append]
    · cases (Prod.mk.inj h).2

theorem of_unsigned_whole {negative : Bool} {n : Int} {s rest : Octets}
    (h : unsigned negative s = .ok (.whole n, rest)) :
    ∃ m, s = ofChars (ofNat m) ++ rest ∧ EndsNumber rest ∧ n = signed negative m ∧
      (negative = true → 0 < m) := by
  cases s with
  | nil => cases h
  | cons b s =>
    unfold unsigned at h
    dsimp only at h
    split at h
    · next hzero =>
      subst hzero
      split at h
      · next d s =>
        split at h
        · cases h
        · next hd =>
          obtain ⟨rfl, -, hn, hpos, hend⟩ := of_numberTail_whole h
          refine ⟨0, rfl, ?_, hn, hpos⟩
          rintro _ ⟨⟩
          exact ⟨by simpa using hd, hend d rfl⟩
      · obtain ⟨rfl, -, hn, hpos, -⟩ := of_numberTail_whole h
        exact ⟨0, rfl, by rintro _ ⟨⟩, hn, hpos⟩
    · next hzero =>
      split at h
      · next hb =>
        obtain ⟨rfl, hdropped, hn, hpos, hend⟩ := of_numberTail_whole h
        have hfit : extend 0 (b :: s.takeWhile isDigit) =
            ((extend 0 (b :: s.takeWhile isDigit)).1, []) := by
          rw [← List.eq_nil_of_length_eq_zero hdropped]
        generalize (extend 0 (b :: s.takeWhile isDigit)).1 = m at hfit hn hpos
        have hdigits : ∀ c ∈ s.takeWhile isDigit, isDigit c = true :=
          List.all_eq_true.mp List.all_takeWhile
        obtain ⟨d, hd, hvalue, hchar⟩ := exists_digitChar hb
        have hm : ofChars (ofNat m) = b :: s.takeWhile isDigit := by
          have hdpos : 0 < d := by
            apply Nat.pos_of_ne_zero
            rintro rfl
            exact hzero hchar.symm
          simp only [extend, Nat.zero_mul, Nat.zero_add, hvalue] at hfit
          rw [if_pos (by unfold largestSignificand; omega)] at hfit
          have hone : ofChars (ofNat d) = [b] := by
            rw [ofChars_ofNat, ofNat, Nat.toDigits_of_lt_base hd, List.map_singleton, hchar]
          rw [ofChars_ofNat_of_extend hfit hdpos hdigits, hone, List.singleton_append]
        refine ⟨m, ?_, ?_, hn, hpos⟩
        · rw [hm, List.cons_append, List.takeWhile_append_dropWhile]
        · intro c hc
          have hstop := List.head?_dropWhile_not isDigit s
          rw [Option.mem_def.mp hc] at hstop
          exact ⟨hstop, hend c hc⟩
      · cases h

/-- Whatever is read as a number of a record is the written form of that number, and it ends
there. -/
theorem written_of_wholeNumber {s rest : Octets} {n : Int} (h : wholeNumber s = .ok (n, rest)) :
    s = ofChars (ofInt n) ++ rest ∧ EndsNumber rest := by
  unfold wholeNumber at h
  split at h
  · next m left hread =>
    split at h
    · obtain ⟨rfl, rfl⟩ := Prod.mk.inj (Except.ok.inj h)
      cases s with
      | nil => cases hread
      | cons b s =>
        simp only [number?] at hread
        split at hread
        · next hminus =>
          obtain ⟨k, rfl, hend, rfl, hpos⟩ := of_unsigned_whole (Option.some.inj hread)
          obtain ⟨k, rfl⟩ := Nat.exists_eq_add_one_of_ne_zero (Nat.ne_of_gt (hpos rfl))
          subst hminus
          exact ⟨rfl, hend⟩
        · split at hread
          · obtain ⟨k, hk, hend, rfl, -⟩ := of_unsigned_whole (Option.some.inj hread)
            exact ⟨hk, hend⟩
          · cases hread
    · cases h
  all_goals cases h

end MailDispatch.Json
