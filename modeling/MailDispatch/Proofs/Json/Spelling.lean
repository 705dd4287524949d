import MailDispatch.Json.Token
import MailDispatch.Proofs.Text.Digits
import MailDispatch.Proofs.Text.Octets

/-! # The spellings of a text

A character stands in a text for itself, or as an escape: by a letter, by its number, or by the
two halves of a surrogate pair. So a text has many spellings. The reader takes each of them for
the same characters, and takes nothing else for a text.
-/
namespace MailDispatch.Json
open Text Octets

/-! ## Characters -/

/-- Whether a character is written as itself in a text. -/
def isOrdinary (c : Char) : Bool := 32 ≤ c.toNat && c != '"' && c != '\\'

/-- Four hexadecimal digits, of either case, and the number that they stand for. -/
inductive SpellsNumber : Nat → Octets → Prop where
  | digits {a b c d : UInt8} {i j k l : Nat} (ha : hexValue? a = some i) (hb : hexValue? b = some j)
      (hc : hexValue? c = some k) (hd : hexValue? d = some l) :
      SpellsNumber (((i * 16 + j) * 16 + k) * 16 + l) [a, b, c, d]

/-- What stands for a character behind a backslash. -/
inductive SpellsEscape : Char → Octets → Prop where
  | letter {b : UInt8} {c : Char} (h : letterEscape? b = some c) : SpellsEscape c [b]
  | number {c : Char} {w : Octets} (h : SpellsNumber c.toNat w) : SpellsEscape c (117 :: w)
  | pair {c : Char} {high low : Nat} {w x : Octets} (hhigh : high < 1024) (hlow : low < 1024)
      (hc : c.toNat = high * 1024 + low + 0x10000) (hw : SpellsNumber (0xD800 + high) w)
      (hx : SpellsNumber (0xDC00 + low) x) : SpellsEscape c (117 :: (w ++ 92 :: 117 :: x))

inductive SpellsChar : Char → Octets → Prop where
  | itself {c : Char} (h : isOrdinary c = true) : SpellsChar c (String.utf8EncodeChar c)
  | escape {c : Char} {w : Octets} (h : SpellsEscape c w) : SpellsChar c (92 :: w)

/-- What stands for characters between two quotes. -/
inductive SpellsText : List Char → Octets → Prop where
  | nil : SpellsText [] []
  | cons {c : Char} {cs : List Char} {w x : Octets} (h : SpellsChar c w) (hs : SpellsText cs x) :
      SpellsText (c :: cs) (w ++ x)

theorem SpellsText.append {s t : List Char} {w x : Octets} (hs : SpellsText s w)
    (ht : SpellsText t x) : SpellsText (s ++ t) (w ++ x) := by
  induction hs with
  | nil => exact ht
  | cons hc _ ih =>
    rw [List.cons_append, List.append_assoc]
    exact .cons hc ih

/-- Ordinary characters spell themselves. -/
theorem spellsText_row {s : List Char} (h : ∀ c ∈ s, isOrdinary c = true) :
    SpellsText s (ofChars s) := by
  induction s with
  | nil => exact .nil
  | cons c s ih =>
    exact .cons (.itself (h c List.mem_cons_self)) (ih fun d hd => h d (List.mem_cons_of_mem c hd))

/-! ## Escapes -/

theorem hexEscape_spelled {n : Nat} {w : Octets} (h : SpellsNumber n w) (rest : Octets) :
    hexEscape (w ++ rest) = .ok (n, rest) := by
  cases h with
  | digits ha hb hc hd =>
    simp only [List.cons_append, List.nil_append, hexEscape, ha, hb, hc, hd]

theorem spelled_of_hexEscape {n : Nat} {s rest : Octets} (h : hexEscape s = .ok (n, rest)) :
    ∃ w, SpellsNumber n w ∧ s = w ++ rest := by
  unfold hexEscape at h
  split at h
  · split at h
    · next ha hb hc hd =>
      obtain ⟨rfl, rfl⟩ := Prod.mk.inj (Except.ok.inj h)
      exact ⟨_, .digits ha hb hc hd, rfl⟩
    · cases h
  · cases h

theorem hexValue?_lt {b : UInt8} {n : Nat} (h : hexValue? b = some n) : n < 16 := by
  unfold hexValue? at h
  split at h
  · next hb =>
    obtain rfl := Option.some.inj h
    simp only [isDigit, Bool.and_eq_true, decide_eq_true_eq, UInt8.le_iff_toNat_le] at hb
    have hhigh : b.toNat ≤ 57 := hb.2
    omega
  · split at h
    · next hb =>
      obtain rfl := Option.some.inj h
      simp only [Bool.and_eq_true, decide_eq_true_eq, UInt8.le_iff_toNat_le] at hb
      have hhigh : b.toNat ≤ 102 := hb.2
      omega
    · split at h
      · next hb =>
        obtain rfl := Option.some.inj h
        simp only [Bool.and_eq_true, decide_eq_true_eq, UInt8.le_iff_toNat_le] at hb
        have hhigh : b.toNat ≤ 70 := hb.2
        omega
      · cases h

theorem SpellsNumber.lt {n : Nat} {w : Octets} (h : SpellsNumber n w) : n < 0x10000 := by
  cases h with
  | digits ha hb hc hd =>
    have ha := hexValue?_lt ha
    have hb := hexValue?_lt hb
    have hc := hexValue?_lt hc
    have hd := hexValue?_lt hd
    omega

/-- No character has a number among the halves of surrogate pairs. -/
theorem not_surrogate (c : Char) : c.toNat < 0xD800 ∨ 0xDFFF < c.toNat := by
  rcases c.valid with h | ⟨h, -⟩
  · exact .inl h
  · exact .inr h

theorem toNat_ofNat_of_not_surrogate {n : Nat} (h : n < 0xD800 ∨ 0xDFFF < n ∧ n < 0x110000) :
    (Char.ofNat n).toNat = n := by
  have hvalid : n.isValidChar := h
  rw [Char.ofNat, dif_pos hvalid]
  rfl

theorem escape_spelled {c : Char} {w : Octets} (h : SpellsEscape c w) (rest : Octets) :
    escape (w ++ rest) = .ok (c, rest) := by
  cases h with
  | letter h => simp only [List.cons_append, List.nil_append, escape, h]
  | @number _ w h =>
    have hmark : letterEscape? 117 = none := by decide
    have hchar := not_surrogate c
    have hlone : ¬ (0xDC00 ≤ c.toNat ∧ c.toNat ≤ 0xDFFF) := by omega
    have hsingle : c.toNat < 0xD800 ∨ 0xDBFF < c.toNat := by omega
    simp only [List.cons_append, escape, hmark, if_true, unicodeEscape, hexEscape_spelled h, bind,
      Except.bind, if_neg hlone, if_pos hsingle, Char.ofNat_toNat, pure, Except.pure]
  | @pair _ high low w x hhigh hlow hc hw hx =>
    have hmark : letterEscape? 117 = none := by decide
    have hfirst : ¬ (0xDC00 ≤ 0xD800 + high ∧ 0xD800 + high ≤ 0xDFFF) := by omega
    have hpair : ¬ (0xD800 + high < 0xD800 ∨ 0xDBFF < 0xD800 + high) := by omega
    have hsecond : ¬ (0xDC00 + low < 0xDC00 ∨ 0xDFFF < 0xDC00 + low) := by omega
    have hnumber : (0xD800 + high - 0xD800) * 1024 + (0xDC00 + low - 0xDC00) + 0x10000 =
        c.toNat := by
      omega
    simp only [List.cons_append, List.append_assoc, escape, hmark, if_true, unicodeEscape,
      hexEscape_spelled hw, hexEscape_spelled hx, surrogateMark, bind, Except.bind, if_neg hfirst,
      if_neg hpair, if_neg hsecond, hnumber, Char.ofNat_toNat, pure, Except.pure]

theorem surrogateMark_eq_ok {mark : UInt8} {s rest : Octets}
    (h : surrogateMark mark s = .ok rest) : s = mark :: rest := by
  cases s with
  | nil => cases h
  | cons b s =>
    simp only [surrogateMark] at h
    split at h
    · next hb =>
      obtain rfl := Except.ok.inj h
      rw [hb]
    · cases h

theorem spelled_of_unicodeEscape {c : Char} {s rest : Octets}
    (h : unicodeEscape s = .ok (c, rest)) : ∃ w, SpellsEscape c (117 :: w) ∧ s = w ++ rest := by
  obtain ⟨⟨n, after⟩, hfirst, hchar⟩ := ok_of_bind h
  obtain ⟨w, hw, rfl⟩ := spelled_of_hexEscape hfirst
  have hn := hw.lt
  dsimp only at hchar
  split at hchar
  · cases hchar
  · next hlone =>
    split at hchar
    · next hsingle =>
      obtain ⟨rfl, rfl⟩ := Prod.mk.inj (Except.ok.inj hchar)
      have hnumber : (Char.ofNat n).toNat = n := toNat_ofNat_of_not_surrogate (by omega)
      refine ⟨w, .number ?_, rfl⟩
      rw [hnumber]
      exact hw
    · next hpair =>
      obtain ⟨t, hback, hbehind⟩ := ok_of_bind hchar
      obtain ⟨u, hmark, hhalf⟩ := ok_of_bind hbehind
      obtain ⟨⟨m, last⟩, hsecond, hcode⟩ := ok_of_bind hhalf
      obtain rfl := surrogateMark_eq_ok hback
      obtain rfl := surrogateMark_eq_ok hmark
      obtain ⟨x, hx, rfl⟩ := spelled_of_hexEscape hsecond
      split at hcode
      · cases hcode
      · next hlow =>
        obtain ⟨rfl, rfl⟩ := Prod.mk.inj (Except.ok.inj hcode)
        obtain ⟨high, rfl⟩ := Nat.exists_eq_add_of_le (show 0xD800 ≤ n by omega)
        obtain ⟨low, rfl⟩ := Nat.exists_eq_add_of_le (show 0xDC00 ≤ m by omega)
        have hnumber : (Char.ofNat ((0xD800 + high - 0xD800) * 1024 + (0xDC00 + low - 0xDC00) +
            0x10000)).toNat = high * 1024 + low + 0x10000 := by
          rw [toNat_ofNat_of_not_surrogate (by omega)]
          omega
        refine ⟨w ++ 92 :: 117 :: x, .pair (by omega) (by omega) hnumber hw hx, ?_⟩
        simp only [List.append_assoc, List.cons_append]

theorem spelled_of_escape {c : Char} {s rest : Octets} (h : escape s = .ok (c, rest)) :
    ∃ w, SpellsEscape c w ∧ s = w ++ rest := by
  cases s with
  | nil => cases h
  | cons b s =>
    unfold escape at h
    dsimp only at h
    split at h
    · next c' hc =>
      obtain ⟨rfl, rfl⟩ := Prod.mk.inj (Except.ok.inj h)
      exact ⟨[b], .letter hc, rfl⟩
    · split at h
      · next hb =>
        obtain ⟨w, hw, rfl⟩ := spelled_of_unicodeEscape h
        obtain rfl := hb
        exact ⟨117 :: w, hw, rfl⟩
      · cases h

/-! ## Rows -/

theorem isPlain_of_mem_encode {c : Char} (h : isOrdinary c = true) {b : UInt8}
    (hb : b ∈ String.utf8EncodeChar c) : isPlain b = true := by
  by_cases hc : c.toNat ≤ 127
  · rw [encode_of_ascii hc, List.mem_singleton] at hb
    obtain rfl := hb
    simp only [isOrdinary, Bool.and_eq_true, decide_eq_true_eq, bne_iff_ne] at h
    obtain ⟨⟨hlow, hquote⟩, hslash⟩ := h
    have hvalue : (ofAscii c).toNat = c.toNat := by
      rw [ofAscii, UInt8.toNat_ofNat', Nat.mod_eq_of_lt (by omega)]
    have hne : ∀ d : Char, c ≠ d → c.toNat ≠ d.toNat := fun d hd heq => hd (Char.toNat_inj.mp heq)
    have hquote' : c.toNat ≠ 34 := hne '"' hquote
    have hslash' : c.toNat ≠ 92 := hne '\\' hslash
    simp only [isPlain, Bool.and_eq_true, decide_eq_true_eq, bne_iff_ne, UInt8.le_iff_toNat_le,
      ne_eq, ← UInt8.toNat_inj, hvalue]
    exact ⟨⟨hlow, hquote'⟩, hslash'⟩
  · have hle := le_of_mem_encode (Nat.not_le.mp hc) hb
    simp only [isPlain, Bool.and_eq_true, decide_eq_true_eq, bne_iff_ne, UInt8.le_iff_toNat_le,
      ne_eq, ← UInt8.toNat_inj] at hle ⊢
    have hhigh : 128 ≤ b.toNat := hle
    refine ⟨⟨?_, ?_⟩, ?_⟩
    · exact Nat.le_trans (by decide) hhigh
    · exact fun heq => absurd (heq ▸ hhigh) (by decide)
    · exact fun heq => absurd (heq ▸ hhigh) (by decide)

theorem isPlain_of_mem_ofChars {s : List Char} (h : ∀ c ∈ s, isOrdinary c = true) {b : UInt8}
    (hb : b ∈ ofChars s) : isPlain b = true := by
  obtain ⟨c, hc, hbc⟩ := List.mem_flatMap.mp hb
  exact isPlain_of_mem_encode (h c hc) hbc

section
variable {s : List Char} {b : UInt8} (h : ∀ c ∈ s, isOrdinary c = true) (hb : isPlain b = false)
  (rest : Octets)
include h hb

theorem dropWhile_row : (ofChars s ++ b :: rest).dropWhile isPlain = b :: rest := by
  rw [List.dropWhile_append_of_pos fun c hc => isPlain_of_mem_ofChars h hc,
    List.dropWhile_cons_of_neg (by simp [hb])]

/-- A row of ordinary characters ends at the first octet that is not plain. -/
theorem plainChars_row : plainChars (ofChars s ++ b :: rest) = .ok s := by
  have hrow : (ofChars s ++ b :: rest).takeWhile isPlain = ofChars s := by
    rw [List.takeWhile_append_of_pos fun c hc => isPlain_of_mem_ofChars h hc,
      List.takeWhile_cons_of_neg (by simp [hb]), List.append_nil]
  simp only [plainChars, hrow, text?_ofChars, String.toList_ofList]

end

theorem isOrdinary_of_isPlain {c : Char} (h : ∀ b ∈ String.utf8EncodeChar c, isPlain b = true) :
    isOrdinary c = true := by
  by_cases hc : c.toNat ≤ 127
  · rw [encode_of_ascii hc] at h
    have hplain := h _ List.mem_cons_self
    have hvalue : (ofAscii c).toNat = c.toNat := by
      rw [ofAscii, UInt8.toNat_ofNat', Nat.mod_eq_of_lt (by omega)]
    simp only [isPlain, Bool.and_eq_true, decide_eq_true_eq, bne_iff_ne, UInt8.le_iff_toNat_le,
      ne_eq, ← UInt8.toNat_inj, hvalue] at hplain
    obtain ⟨⟨hlow, hquote⟩, hslash⟩ := hplain
    simp only [isOrdinary, Bool.and_eq_true, decide_eq_true_eq, bne_iff_ne]
    refine ⟨⟨hlow, ?_⟩, ?_⟩
    · rintro rfl
      exact hquote rfl
    · rintro rfl
      exact hslash rfl
  · simp only [isOrdinary, Bool.and_eq_true, decide_eq_true_eq, bne_iff_ne]
    refine ⟨⟨by omega, ?_⟩, ?_⟩
    · rintro rfl
      exact hc (by decide)
    · rintro rfl
      exact hc (by decide)

theorem ofChars_of_text? {o : Octets} {t : String} (h : text? o = some t) :
    o = ofChars t.toList := by
  unfold text? String.fromUTF8? at h
  split at h
  · next hvalid =>
    obtain rfl := Option.some.inj h
    have hspelt : (ofChars (String.fromUTF8 ⟨o.toArray⟩ hvalid).toList).toByteArray =
        ⟨o.toArray⟩ := String.utf8Encode_toList
    have hdata := congrArg ByteArray.data hspelt
    rw [List.data_toByteArray] at hdata
    exact (List.toArray_inj hdata).symm
  · cases h

/-- A row spells the characters that are read from it. -/
theorem row_of_plainChars {s : Octets} {cs : List Char} (h : plainChars s = .ok cs) :
    s.takeWhile isPlain = ofChars cs ∧ ∀ c ∈ cs, isOrdinary c = true := by
  unfold plainChars at h
  dsimp only at h
  split at h
  · next t ht =>
    obtain rfl := Except.ok.inj h
    have hrow := ofChars_of_text? ht
    refine ⟨hrow, fun c hc => isOrdinary_of_isPlain fun b hb => ?_⟩
    have hmem : b ∈ s.takeWhile isPlain := by
      rw [hrow]
      exact List.mem_flatMap.mpr ⟨c, hc, hb⟩
    exact List.all_eq_true.mp List.all_takeWhile b hmem
  · cases h

/-! ## Texts -/

/-- A spelling is a row of ordinary characters up to the first escape, or up to the end. -/
theorem SpellsText.exists_row {s : List Char} {w : Octets} (h : SpellsText s w) :
    ∃ row later x, (∀ c ∈ row, isOrdinary c = true) ∧ s = row ++ later ∧ w = ofChars row ++ x ∧
      (later = [] ∧ x = [] ∨ ∃ c later' e y, later = c :: later' ∧ x = 92 :: (e ++ y) ∧
        SpellsEscape c e ∧ SpellsText later' y) := by
  induction h with
  | nil => exact ⟨[], [], [], by simp, rfl, rfl, .inl ⟨rfl, rfl⟩⟩
  | @cons c cs w x hc hs ih =>
    cases hc with
    | itself hordinary =>
      obtain ⟨row, later, y, hrow, rfl, rfl, hlater⟩ := ih
      refine ⟨c :: row, later, y, ?_, rfl, ?_, hlater⟩
      · intro d hd
        rcases List.mem_cons.mp hd with rfl | hd
        · exact hordinary
        · exact hrow d hd
      · rw [ofChars_cons, List.append_assoc]
    | @escape e he =>
      exact ⟨[], c :: cs, _, by simp, rfl, rfl, .inr ⟨c, cs, e, x, rfl, rfl, he, hs⟩⟩

theorem textChars_spelled {fuel : Nat} {s : List Char} {w : Octets} (h : SpellsText s w)
    (hfuel : s.length < fuel) (acc : List Char) (rest : Octets) :
    textChars fuel acc (w ++ 34 :: rest) = .ok (s.reverse ++ acc, rest) := by
  induction fuel generalizing s w acc with
  | zero => exact absurd hfuel (Nat.not_lt_zero _)
  | succ fuel ih =>
    obtain ⟨row, later, x, hrow, rfl, rfl, ⟨rfl, rfl⟩ | ⟨c, later, e, y, rfl, rfl, he, hy⟩⟩ :=
      h.exists_row
    · have hquote : isPlain 34 = false := rfl
      rw [List.append_nil, List.append_nil]
      simp only [textChars, dropWhile_row hrow hquote, plainChars_row hrow hquote, if_true]
      rfl
    · have hslash : isPlain 92 = false := rfl
      have hoctets : ofChars row ++ 92 :: (e ++ y) ++ 34 :: rest =
          ofChars row ++ 92 :: (e ++ (y ++ 34 :: rest)) := by
        simp only [List.append_assoc, List.cons_append]
      have hread : later.reverse ++ c :: (row.reverse ++ acc) =
          (row ++ c :: later).reverse ++ acc := by
        simp only [List.reverse_append, List.reverse_cons, List.append_assoc, List.cons_append,
          List.nil_append]
      have hshorter : later.length < fuel := by
        rw [List.length_append, List.length_cons] at hfuel
        omega
      rw [hoctets]
      simp only [textChars, dropWhile_row hrow hslash, plainChars_row hrow hslash,
        escape_spelled he]
      exact (ih hy hshorter _).trans (by rw [hread])

theorem SpellsChar.ne_nil {c : Char} {w : Octets} (h : SpellsChar c w) : w ≠ [] := by
  cases h with
  | itself => exact String.utf8EncodeChar_ne_nil
  | escape => exact List.cons_ne_nil _ _

theorem SpellsText.length_le {s : List Char} {w : Octets} (h : SpellsText s w) :
    s.length ≤ w.length := by
  induction h with
  | nil => exact Nat.le_refl _
  | cons hc _ ih =>
    have hpos := List.length_pos_iff.mpr hc.ne_nil
    rw [List.length_append, List.length_cons]
    omega

/-- Every spelling of a text is read as that text, up to the closing quote. -/
theorem text_spelled {s : List Char} {w : Octets} (h : SpellsText s w) (rest : Octets) :
    text (w ++ 34 :: rest) = .ok (String.ofList s, rest) := by
  have hfuel : s.length < (w ++ 34 :: rest).length + 1 := by
    have hle := h.length_le
    rw [List.length_append]
    omega
  simp only [text, textChars_spelled h hfuel, List.append_nil, List.reverse_reverse]

theorem slash_of_not_isPlain {b : UInt8} (h : isPlain b = false) (hlow : ¬ b < 32)
    (hquote : b ≠ 34) : b = 92 := by
  rw [UInt8.not_lt] at hlow
  simp only [isPlain, Bool.and_eq_false_iff, decide_eq_false_iff_not, bne_eq_false_iff_eq] at h
  rcases h with (hlow' | hquote') | hslash
  · exact absurd hlow hlow'
  · exact absurd hquote' hquote
  · exact hslash

theorem spelled_of_textChars {fuel : Nat} {acc out : List Char} {s rest : Octets}
    (h : textChars fuel acc s = .ok (out, rest)) :
    ∃ cs w, SpellsText cs w ∧ s = w ++ 34 :: rest ∧ out = cs.reverse ++ acc := by
  induction fuel generalizing acc s with
  | zero => cases h
  | succ fuel ih =>
    have hsplit : s.takeWhile isPlain ++ s.dropWhile isPlain = s := List.takeWhile_append_dropWhile
    unfold textChars at h
    split at h
    · cases h
    · next b after hafter =>
      rw [hafter] at hsplit
      split at h
      · cases h
      · next hlow =>
        split at h
        · cases h
        · next cs hcs =>
          obtain ⟨hrow, hordinary⟩ := row_of_plainChars hcs
          rw [hrow] at hsplit
          split at h
          · next hquote =>
            obtain ⟨rfl, rfl⟩ := Prod.mk.inj (Except.ok.inj h)
            refine ⟨cs, ofChars cs, spellsText_row hordinary, ?_, rfl⟩
            rw [← hsplit, hquote]
          · next hquote =>
            split at h
            · next c left hescape =>
              obtain ⟨e, he, rfl⟩ := spelled_of_escape hescape
              obtain ⟨later, w, hw, rfl, rfl⟩ := ih h
              have hslash : b = 92 := by
                have hplain := List.head?_dropWhile_not isPlain s
                rw [hafter] at hplain
                exact slash_of_not_isPlain hplain hlow hquote
              refine ⟨cs ++ c :: later, ofChars cs ++ (92 :: e ++ w), ?_, ?_, ?_⟩
              · exact (spellsText_row hordinary).append (.cons (.escape he) hw)
              · rw [← hsplit, hslash]
                simp only [List.append_assoc, List.cons_append]
              · simp only [List.reverse_append, List.reverse_cons, List.append_assoc,
                  List.cons_append, List.nil_append]
            · cases h

/-- Whatever is read as a text spells it, up to the closing quote. -/
theorem spelled_of_text {t : String} {s rest : Octets} (h : text s = .ok (t, rest)) :
    ∃ w, SpellsText t.toList w ∧ s = w ++ 34 :: rest := by
  unfold text at h
  split at h
  · next out left hread =>
    obtain ⟨rfl, rfl⟩ := Prod.mk.inj (Except.ok.inj h)
    obtain ⟨cs, w, hw, hs, rfl⟩ := spelled_of_textChars hread
    refine ⟨w, ?_, hs⟩
    rw [List.append_nil, List.reverse_reverse, String.toList_ofList]
    exact hw
  · cases h

end MailDispatch.Json
