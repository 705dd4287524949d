import MailDispatch.Proofs.Text.Digits
import MailDispatch.Proofs.Time.Spelling

/-! # What is read as a timestamp

Each part that the reader takes has one of the spellings that the grammar gives it, so that a text
which is read as a timestamp is the spelling of a local time.
-/
namespace MailDispatch.Time.Reader
open Text Numeral Calendar

theorem gap_of_trimStart {s t : List Char} (h : trimStart s = t) : ∃ l, Gap l ∧ s = l ++ t := by
  refine ⟨s.takeWhile isBlank, List.all_eq_true.mp List.all_takeWhile, ?_⟩
  rw [← h]
  exact List.takeWhile_append_dropWhile.symm

theorem spelled_of_spaced {c : Char} {s rest : List Char} (h : spaced c s = .ok rest) :
    ∃ w, SpellsMark c w ∧ s = w ++ rest := by
  unfold spaced literal at h
  split at h
  · cases h
  · next d after hafter =>
    split at h
    · next hd =>
      obtain rfl := Except.ok.inj h
      obtain ⟨l, hl, rfl⟩ := gap_of_trimStart hafter
      refine ⟨l ++ [c], .mark hl, ?_⟩
      rw [hd, List.append_assoc, List.singleton_append]
    · cases h

theorem spelled_of_digits {width value n : Nat} {s rest : List Char}
    (h : digits width value s = .ok (n, rest)) : ∃ w, (∀ c ∈ w, (digit? c).isSome = true) ∧
      valueFrom value w = n ∧ w.length ≤ width ∧ s = w ++ rest := by
  have hnone : ∀ c ∈ ([] : List Char), (digit? c).isSome = true := by
    rintro c ⟨⟩
  induction width generalizing value s with
  | zero =>
    obtain ⟨rfl, rfl⟩ := Prod.mk.inj (Except.ok.inj h)
    exact ⟨[], hnone, rfl, Nat.le_refl 0, rfl⟩
  | succ width ih =>
    cases s with
    | nil =>
      obtain ⟨rfl, rfl⟩ := Prod.mk.inj (Except.ok.inj h)
      exact ⟨[], hnone, rfl, Nat.zero_le _, rfl⟩
    | cons c s =>
      unfold digits at h
      split at h
      · obtain ⟨rfl, rfl⟩ := Prod.mk.inj (Except.ok.inj h)
        exact ⟨[], hnone, rfl, Nat.zero_le _, rfl⟩
      · next d hd =>
        split at h
        · obtain ⟨w, hw, hvalue, hlength, rfl⟩ := ih h
          refine ⟨c :: w, ?_, ?_, Nat.succ_le_succ hlength, rfl⟩
          · intro b hb
            rcases List.mem_cons.mp hb with rfl | hb
            · rw [hd]
              rfl
            · exact hw b hb
          · rw [← hvalue]
            simp only [valueFrom, List.foldl_cons, hd, Option.getD_some]
        · cases h

theorem spelled_of_number {width n : Nat} {s rest : List Char} (hwidth : 0 < width)
    (h : number width s = .ok (n, rest)) :
    ∃ w, IsNumeral n w ∧ w.length ≤ width ∧ s = w ++ rest := by
  unfold number at h
  split at h
  · cases h
  · next c s =>
    split at h
    · cases h
    · next d hd =>
      obtain ⟨w, hw, hvalue, hlength, hs⟩ := spelled_of_digits h
      refine ⟨w, ⟨?_, hw, hvalue⟩, hlength, hs⟩
      rintro rfl
      -- The first digit is always taken.
      obtain ⟨more, rfl⟩ := Nat.exists_eq_add_of_le' hwidth
      rw [List.nil_append] at hs
      subst hs
      unfold digits at h
      simp only [hd] at h
      split at h
      · obtain ⟨v, -, -, -, hv⟩ := spelled_of_digits h
        have hlengths := congrArg List.length hv
        rw [List.length_append, List.length_cons] at hlengths
        omega
      · cases h

theorem spelled_of_bounded {low high n : Nat} {s rest : List Char}
    (h : bounded low high s = .ok (n, rest)) :
    ∃ w, SpellsPart n w ∧ (low ≤ n ∧ n ≤ high) ∧ s = w ++ rest := by
  obtain ⟨⟨m, left⟩, hnumber, hbounds⟩ := ok_of_bind h
  obtain ⟨w, hw, hlength, hafter⟩ := spelled_of_number (by decide) hnumber
  obtain ⟨l, hl, rfl⟩ := gap_of_trimStart hafter
  dsimp only at hbounds
  split at hbounds
  · next hin =>
    obtain ⟨rfl, rfl⟩ := Prod.mk.inj (Except.ok.inj hbounds)
    exact ⟨l ++ w, .part hl hw hlength, hin, (List.append_assoc _ _ _).symm⟩
  · cases hbounds

theorem spelled_of_signed {n : Nat} {s rest : List Char}
    (h : number s.length s = .ok (n, rest)) : ∃ w, IsNumeral n w ∧ s = w ++ rest := by
  cases s with
  | nil => cases h
  | cons c s =>
    obtain ⟨w, hw, -, hs⟩ := spelled_of_number (Nat.succ_pos _) h
    exact ⟨w, hw, hs⟩

theorem spelled_of_year {y : Int} {s rest : List Char} (h : year s = .ok (y, rest)) :
    ∃ w, SpellsYear y w ∧ s = w ++ rest := by
  have hranged : ∀ {z : Int} {after : List Char}, (if -2147483648 ≤ z ∧ z ≤ 2147483647 then
      (pure (z, after) : Except Problem (Int × List Char)) else throw .outOfRange) =
        .ok (y, rest) → z = y ∧ after = rest := by
    intro z after hz
    split at hz
    · exact Prod.mk.inj (Except.ok.inj hz)
    · cases hz
  unfold year at h
  split at h
  · next t ht =>
    obtain ⟨⟨n, after⟩, hnumber, hrange⟩ := ok_of_bind h
    obtain ⟨rfl, rfl⟩ := hranged hrange
    obtain ⟨w, hw, rfl⟩ := spelled_of_signed hnumber
    obtain ⟨l, hl, rfl⟩ := gap_of_trimStart ht
    refine ⟨l ++ '-' :: w, .negative hl hw, ?_⟩
    rw [List.append_assoc, List.cons_append]
  · next t ht =>
    obtain ⟨⟨n, after⟩, hnumber, hrange⟩ := ok_of_bind h
    obtain ⟨rfl, rfl⟩ := hranged hrange
    obtain ⟨w, hw, rfl⟩ := spelled_of_signed hnumber
    obtain ⟨l, hl, rfl⟩ := gap_of_trimStart ht
    refine ⟨l ++ '+' :: w, .positive hl hw, ?_⟩
    rw [List.append_assoc, List.cons_append]
  · obtain ⟨⟨n, after⟩, hnumber, hrange⟩ := ok_of_bind h
    obtain ⟨rfl, rfl⟩ := hranged hrange
    obtain ⟨w, hw, hlength, hafter⟩ := spelled_of_number (by decide) hnumber
    obtain ⟨l, hl, rfl⟩ := gap_of_trimStart hafter
    exact ⟨l ++ w, .unsigned hl hw hlength, (List.append_assoc _ _ _).symm⟩

theorem spelled_of_date {d : Date} {s rest : List Char} (h : date s = .ok (d, rest)) :
    ∃ w, SpellsDate d w ∧ s = w ++ rest := by
  obtain ⟨⟨y, s₁⟩, hy, h⟩ := ok_of_bind h
  obtain ⟨s₂, ha, h⟩ := ok_of_bind h
  obtain ⟨⟨m, s₃⟩, hm, h⟩ := ok_of_bind h
  obtain ⟨s₄, hb, h⟩ := ok_of_bind h
  obtain ⟨⟨n, s₅⟩, hn, h⟩ := ok_of_bind h
  obtain ⟨rfl, rfl⟩ := Prod.mk.inj (Except.ok.inj h)
  obtain ⟨wy, hwy, rfl⟩ := spelled_of_year hy
  obtain ⟨wa, hwa, rfl⟩ := spelled_of_spaced ha
  obtain ⟨wm, hwm, -, rfl⟩ := spelled_of_bounded hm
  obtain ⟨wb, hwb, rfl⟩ := spelled_of_spaced hb
  obtain ⟨wn, hwn, -, rfl⟩ := spelled_of_bounded hn
  exact ⟨_, .date hwy hwa hwm hwb hwn, by simp only [List.append_assoc]⟩

theorem spelled_of_fraction {nano : Nat} {s rest : List Char}
    (h : fraction s = .ok (nano, rest)) : ∃ w, SpellsFraction nano w ∧ s = w ++ rest := by
  cases s with
  | nil =>
    obtain ⟨rfl, rfl⟩ := Prod.mk.inj (Except.ok.inj h)
    exact ⟨[], .none, rfl⟩
  | cons c s =>
    by_cases hc : c = '.'
    · subst hc
      obtain ⟨⟨n, left⟩, hnumber, -⟩ := ok_of_bind h
      obtain ⟨w, hw, -, hs⟩ := spelled_of_number (by decide) hnumber
      -- All digits that follow the point belong to the fraction.
      have hsplit := List.takeWhile_append_dropWhile (p := fun c => (digit? c).isSome) (l := s)
      have hdigits : IsNumeral (valueFrom 0 (s.takeWhile fun c => (digit? c).isSome))
          (s.takeWhile fun c => (digit? c).isSome) := by
        refine ⟨?_, List.all_eq_true.mp List.all_takeWhile, rfl⟩
        obtain ⟨c, cs, rfl, hc⟩ := hw.exists_cons
        rw [hs, List.cons_append, List.takeWhile_cons_of_pos (p := fun c => (digit? c).isSome) hc]
        exact List.cons_ne_nil _ _
      have hend : EndsDigits (s.dropWhile fun c => (digit? c).isSome) := by
        intro c hc
        have hstop := List.head?_dropWhile_not (fun c => (digit? c).isSome) s
        rw [Option.mem_def.mp hc] at hstop
        simpa using hstop
      have hread := fraction_numeral hdigits hend
      rw [hsplit, h] at hread
      obtain ⟨rfl, rfl⟩ := Prod.mk.inj (Except.ok.inj hread)
      exact ⟨_, .digits hdigits, by rw [List.cons_append, hsplit]⟩
    · unfold fraction at h
      split at h
      · next heq => exact absurd (List.cons.inj heq).1 hc
      · obtain ⟨rfl, rfl⟩ := Prod.mk.inj (Except.ok.inj h)
        exact ⟨[], .none, rfl⟩

theorem SpellsFraction.lt {nano : Nat} {w : List Char} (h : SpellsFraction nano w) :
    nano < 1000000000 := by
  cases h with
  | none => decide
  | digits hw =>
    apply Nat.div_lt_of_lt_mul
    have hlt := hw.lt
    omega

theorem spelled_of_clock {c : Clock} {s rest : List Char} (h : clock s = .ok (c, rest)) :
    ∃ w, SpellsClock c w ∧ (c.hour ≤ 23 ∧ c.minute ≤ 59 ∧ c.second ≤ 60 ∧ c.nano < 1000000000) ∧
      s = w ++ rest := by
  obtain ⟨⟨hour, s₁⟩, hh, h⟩ := ok_of_bind h
  obtain ⟨s₂, ha, h⟩ := ok_of_bind h
  obtain ⟨⟨minute, s₃⟩, hm, h⟩ := ok_of_bind h
  obtain ⟨s₄, hb, h⟩ := ok_of_bind h
  obtain ⟨⟨second, s₅⟩, hs, h⟩ := ok_of_bind h
  obtain ⟨⟨nano, s₆⟩, hf, h⟩ := ok_of_bind h
  obtain ⟨rfl, rfl⟩ := Prod.mk.inj (Except.ok.inj h)
  obtain ⟨wh, hwh, hhour, rfl⟩ := spelled_of_bounded hh
  obtain ⟨wa, hwa, rfl⟩ := spelled_of_spaced ha
  obtain ⟨wm, hwm, hminute, rfl⟩ := spelled_of_bounded hm
  obtain ⟨wb, hwb, rfl⟩ := spelled_of_spaced hb
  obtain ⟨ws, hws, hsecond, rfl⟩ := spelled_of_bounded hs
  obtain ⟨wf, hwf, rfl⟩ := spelled_of_fraction hf
  exact ⟨_, .clock hwh hwa hwm hwb hws hwf, ⟨hhour.2, hminute.2, hsecond.2, hwf.lt⟩,
    by simp only [List.append_assoc]⟩

theorem spelled_of_twoDigits {n : Nat} {s rest : List Char} (h : twoDigits s = .ok (n, rest)) :
    ∃ w, IsNumeral n w ∧ w.length = 2 ∧ s = w ++ rest := by
  unfold twoDigits at h
  split at h
  · cases h
  · cases h
  · next a b after =>
    split at h
    · next d e hd he =>
      obtain ⟨rfl, rfl⟩ := Prod.mk.inj (Except.ok.inj h)
      refine ⟨[a, b], ⟨List.cons_ne_nil _ _, ?_, ?_⟩, rfl, rfl⟩
      · intro c hc
        rcases List.mem_cons.mp hc with rfl | hc
        · rw [hd]
          rfl
        · rw [List.mem_singleton.mp hc, he]
          rfl
      · simp only [valueFrom, List.foldl_cons, List.foldl_nil, hd, he, Option.getD_some,
          Nat.zero_mul, Nat.zero_add]
    · cases h

theorem spelled_of_offsetMinutes {n : Nat} {s rest : List Char}
    (h : offsetMinutes s = .ok (n, rest)) : ∃ w, SpellsShift n w ∧ s = w ++ rest := by
  obtain ⟨⟨hour, after⟩, hh, h⟩ := ok_of_bind h
  obtain ⟨⟨minute, left⟩, hm, h⟩ := ok_of_bind h
  dsimp only at hm h
  split at h
  · next hlt =>
    obtain ⟨rfl, rfl⟩ := Prod.mk.inj (Except.ok.inj h)
    obtain ⟨v, hv, hvlength, rfl⟩ := spelled_of_twoDigits hh
    obtain ⟨w, hw, hwlength, hafter⟩ := spelled_of_twoDigits hm
    have hg : ∀ c ∈ after.takeWhile isColonOrBlank, isColonOrBlank c = true :=
      List.all_eq_true.mp List.all_takeWhile
    refine ⟨_, .shift hv hvlength hg hw hwlength hlt, ?_⟩
    rw [List.append_assoc, List.append_assoc, ← hafter, List.takeWhile_append_dropWhile]
  · cases h

/-- Behind either minus sign there is the shift of a place where clocks are behind. -/
theorem spelled_of_behind {off : Int} {s rest : List Char}
    (h : (do
      let (m, rest) ← offsetMinutes s
      return (-(m * 60 : Int), rest)) = Except.ok (off, rest)) :
    ∃ (n : Nat) (w : List Char), SpellsShift n w ∧ off = -(n * 60 : Int) ∧ s = w ++ rest := by
  obtain ⟨⟨n, left⟩, hn, hvalue⟩ := ok_of_bind h
  obtain ⟨rfl, rfl⟩ := Prod.mk.inj (Except.ok.inj hvalue)
  obtain ⟨w, hw, rfl⟩ := spelled_of_offsetMinutes hn
  exact ⟨n, w, hw, rfl, rfl⟩

theorem spelled_of_offset {off : Int} {s rest : List Char} (h : offset s = .ok (off, rest)) :
    ∃ n w, SpellsOffset n w ∧ off = n * 60 ∧ s = w ++ rest := by
  unfold offset at h
  split at h
  · cases h
  · next after hafter =>
    obtain ⟨rfl, rfl⟩ := Prod.mk.inj (Except.ok.inj h)
    obtain ⟨l, hl, rfl⟩ := gap_of_trimStart hafter
    refine ⟨0, l ++ ['Z'], .zulu hl (.inl rfl), rfl, ?_⟩
    rw [List.append_assoc, List.singleton_append]
  · next after hafter =>
    obtain ⟨rfl, rfl⟩ := Prod.mk.inj (Except.ok.inj h)
    obtain ⟨l, hl, rfl⟩ := gap_of_trimStart hafter
    refine ⟨0, l ++ ['z'], .zulu hl (.inr rfl), rfl, ?_⟩
    rw [List.append_assoc, List.singleton_append]
  · next after hafter =>
    obtain ⟨⟨n, left⟩, hn, hvalue⟩ := ok_of_bind h
    obtain ⟨rfl, rfl⟩ := Prod.mk.inj (Except.ok.inj hvalue)
    obtain ⟨w, hw, rfl⟩ := spelled_of_offsetMinutes hn
    obtain ⟨l, hl, rfl⟩ := gap_of_trimStart hafter
    refine ⟨n, l ++ '+' :: w, .ahead hl hw, rfl, ?_⟩
    rw [List.append_assoc, List.cons_append]
  · next after hafter =>
    obtain ⟨n, w, hw, rfl, rfl⟩ := spelled_of_behind h
    obtain ⟨l, hl, rfl⟩ := gap_of_trimStart hafter
    refine ⟨-n, l ++ '-' :: w, .behind hl (.inl rfl) hw, (Int.neg_mul _ _).symm, ?_⟩
    rw [List.append_assoc, List.cons_append]
  · next after hafter =>
    obtain ⟨n, w, hw, rfl, rfl⟩ := spelled_of_behind h
    obtain ⟨l, hl, rfl⟩ := gap_of_trimStart hafter
    refine ⟨-n, l ++ '\u2212' :: w, .behind hl (.inr rfl) hw, (Int.neg_mul _ _).symm, ?_⟩
    rw [List.append_assoc, List.cons_append]
  · next u t c after _ _ _ _ _ hafter =>
    split at h
    · next hname =>
      obtain ⟨rfl, rfl⟩ := Prod.mk.inj (Except.ok.inj h)
      obtain ⟨l, hl, rfl⟩ := gap_of_trimStart hafter
      refine ⟨0, l ++ [u, t, c], .named hl hname.1 hname.2.1 hname.2.2, rfl, ?_⟩
      rw [List.append_assoc]
      rfl
    · cases h
  · cases h

/-- Parts that are read one after the other spell a local time together. -/
theorem spellsTime_of_parts {x : LocalTime} {s s₁ s₂ s₃ : List Char} {sep : Char}
    (hd : date s = .ok (x.date, sep :: s₁)) (hsep : sep = 'T' ∨ sep = 't' ∨ sep = ' ')
    (hc : clock s₁ = .ok (x.clock, s₂)) (ho : offset s₂ = .ok (x.ahead * 60, s₃)) (hg : Gap s₃) :
    SpellsTime x s := by
  obtain ⟨wd, hwd, rfl⟩ := spelled_of_date hd
  obtain ⟨wc, hwc, -, rfl⟩ := spelled_of_clock hc
  obtain ⟨n, wo, hwo, hn, rfl⟩ := spelled_of_offset ho
  obtain rfl : n = x.ahead := by omega
  exact .time hwd hsep hwc hwo hg

/-- Whatever is read as a timestamp spells a local time. -/
theorem spelled_of_read {s : List Char} {t : Timestamp} (h : read s = .ok t) :
    ∃ x, SpellsTime x s := by
  obtain ⟨⟨d, s₁⟩, hd, h₁⟩ := ok_of_bind h
  obtain ⟨s₂, hsep, h₂⟩ := ok_of_bind h₁
  obtain ⟨⟨c, s₃⟩, hc, h₃⟩ := ok_of_bind h₂
  obtain ⟨⟨off, s₄⟩, ho, hend⟩ := ok_of_bind h₃
  obtain ⟨-, -, htimely, -⟩ := spelled_of_clock hc
  obtain ⟨n, -, -, rfl, -⟩ := spelled_of_offset ho
  dsimp only at hend hsep hc ho
  split at hend
  · next hempty =>
    obtain ⟨g, hg, hrest⟩ := gap_of_trimStart (List.isEmpty_iff.mp hempty)
    rw [List.append_nil] at hrest
    unfold resolve at hend
    split at hend
    · cases hend
    · next hreal =>
      split at hend
      · cases hend
      · next hnear =>
        have hexists : d.Exists := Decidable.not_not.mp fun hnot => hreal (.inl hnot)
        unfold separator at hsep
        split at hsep
        · cases hsep
        · next sep after =>
          split at hsep
          · next hletter =>
            obtain rfl := Except.ok.inj hsep
            refine ⟨⟨d, c, n, hexists, htimely, by omega⟩, ?_⟩
            exact spellsTime_of_parts hd hletter hc ho (hrest ▸ hg)
          · cases hsep
  · cases hend

end MailDispatch.Time.Reader
