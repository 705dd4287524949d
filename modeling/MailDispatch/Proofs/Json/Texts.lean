import MailDispatch.Json.Written
import MailDispatch.Proofs.Json.Spelling

/-! # Written texts read back

A text is written in one of its spellings: an ordinary character as itself, and the others as
escapes. So it is read as every spelling is.
-/
namespace MailDispatch.Json
open Text Octets

theorem writtenChar_of_ordinary {c : Char} (h : isOrdinary c = true) : writtenChar c = [c] := by
  unfold writtenChar
  split
  all_goals try contradiction
  refine if_neg ?_
  simp only [isOrdinary, Bool.and_eq_true, decide_eq_true_eq] at h
  exact Nat.not_lt.mpr h.1.1

theorem flatMap_writtenChar_of_ordinary {s : List Char} (h : ∀ c ∈ s, isOrdinary c = true) :
    s.flatMap writtenChar = s := by
  induction s with
  | nil => rfl
  | cons c s ih =>
    have hc := writtenChar_of_ordinary (h c List.mem_cons_self)
    rw [List.flatMap_cons, hc, ih fun d hd => h d (List.mem_cons_of_mem c hd)]
    rfl

/-! ## Escapes -/

theorem hexValue?_hexDigit {n : Nat} (h : n < 16) :
    hexValue? (ofAscii (hexDigit n)) = some n := by
  have hall : ∀ d : Fin 16, hexValue? (ofAscii (hexDigit d.val)) = some d.val := by decide
  exact hall ⟨n, h⟩

theorem toNat_hexDigit_le {n : Nat} (h : n < 16) : (hexDigit n).toNat ≤ 127 := by
  have hall : ∀ d : Fin 16, (hexDigit d.val).toNat ≤ 127 := by decide
  exact hall ⟨n, h⟩

/-- A control character is written by its number. -/
theorem spellsEscape_control {c : Char} (h : c.toNat < 32) :
    SpellsEscape c
      (ofChars ['u', '0', '0', hexDigit (c.toNat / 16), hexDigit (c.toNat % 16)]) := by
  have hhigh : c.toNat / 16 < 16 := by omega
  have hlow : c.toNat % 16 < 16 := Nat.mod_lt _ (by decide)
  have hascii : ∀ d ∈ ['u', '0', '0', hexDigit (c.toNat / 16), hexDigit (c.toNat % 16)],
      d.toNat ≤ 127 := by
    intro d hd
    simp only [List.mem_cons, List.not_mem_nil, or_false] at hd
    rcases hd with rfl | rfl | rfl | rfl | rfl
    · decide
    · decide
    · decide
    · exact toNat_hexDigit_le hhigh
    · exact toNat_hexDigit_le hlow
  have hzero : hexValue? (ofAscii '0') = some 0 := by decide
  have hdigits :=
    SpellsNumber.digits hzero hzero (hexValue?_hexDigit hhigh) (hexValue?_hexDigit hlow)
  have hnumber : ((0 * 16 + 0) * 16 + c.toNat / 16) * 16 + c.toNat % 16 = c.toNat := by omega
  rw [hnumber] at hdigits
  rw [ofChars_of_ascii hascii]
  exact .number hdigits

theorem spellsChar_written (c : Char) : SpellsChar c (ofChars (writtenChar c)) := by
  cases h : isOrdinary c with
  | true =>
    rw [writtenChar_of_ordinary h, ofChars_cons, ofChars_nil, List.append_nil]
    exact .itself h
  | false =>
    unfold writtenChar
    split
    case h_8 hquote hslash hback hfeed hline hreturn htab =>
      have hcontrol : c.toNat < 32 := by
        simp only [isOrdinary, Bool.and_eq_false_iff, decide_eq_false_iff_not,
          bne_eq_false_iff_eq, Nat.not_le] at h
        rcases h with (hlow | rfl) | rfl
        · exact hlow
        · exact absurd rfl hquote
        · exact absurd rfl hslash
      rw [if_pos hcontrol, ofChars_cons_of_ascii (by decide)]
      exact .escape (spellsEscape_control hcontrol)
    all_goals exact .escape (.letter rfl)

/-! ## Texts -/

theorem spellsText_written (s : List Char) : SpellsText s (ofChars (s.flatMap writtenChar)) := by
  induction s with
  | nil => exact .nil
  | cons c s ih =>
    rw [List.flatMap_cons, ofChars_append]
    exact .cons (spellsChar_written c) ih

end MailDispatch.Json
