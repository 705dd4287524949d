import MailDispatch.Text.Octets

/-! # Octets that spell characters

The octets of a list of characters are those of its characters, one after the other. A
character takes one octet if it is one of the first 128 and otherwise only octets that no
such character has.
-/
namespace MailDispatch.Text.Octets

/-- The octet of a character that takes only one. -/
def ofAscii (c : Char) : UInt8 := UInt8.ofNat c.toNat

@[simp] theorem ofChars_nil : ofChars [] = [] := rfl

@[simp] theorem ofChars_append (s t : List Char) : ofChars (s ++ t) = ofChars s ++ ofChars t :=
  List.flatMap_append

theorem ofChars_cons (c : Char) (s : List Char) :
    ofChars (c :: s) = String.utf8EncodeChar c ++ ofChars s := rfl

theorem encode_of_ascii {c : Char} (h : c.toNat ≤ 127) : String.utf8EncodeChar c = [ofAscii c] :=
  if_pos h

theorem ofChars_cons_of_ascii {c : Char} (h : c.toNat ≤ 127) (s : List Char) :
    ofChars (c :: s) = ofAscii c :: ofChars s := by
  rw [ofChars_cons, encode_of_ascii h]
  rfl

theorem ofChars_of_ascii {s : List Char} (h : ∀ c ∈ s, c.toNat ≤ 127) :
    ofChars s = s.map ofAscii := by
  induction s with
  | nil => rfl
  | cons c s ih =>
    have hc : c.toNat ≤ 127 := h c List.mem_cons_self
    have hs : ∀ d ∈ s, d.toNat ≤ 127 := fun d hd => h d (List.mem_cons_of_mem c hd)
    rw [ofChars_cons_of_ascii hc, ih hs, List.map_cons]

theorem le_ofNat {n : Nat} (h : 128 ≤ n) (hn : n < 256) : 128 ≤ UInt8.ofNat n := by
  rw [UInt8.le_iff_toNat_le, UInt8.toNat_ofNat', Nat.mod_eq_of_lt hn]
  exact h

/-- A character that takes several octets shares none of them with one that takes only one. -/
theorem le_of_mem_encode {c : Char} (h : 127 < c.toNat) {b : UInt8}
    (hb : b ∈ String.utf8EncodeChar c) : 128 ≤ b := by
  have hlong : ¬ c.val.toNat ≤ 127 := Nat.not_le.mpr h
  simp only [String.utf8EncodeChar, if_neg hlong] at hb
  split at hb
  · simp only [List.mem_cons, List.not_mem_nil, or_false] at hb
    rcases hb with rfl | rfl <;> exact le_ofNat (by omega) (by omega)
  · split at hb
    · simp only [List.mem_cons, List.not_mem_nil, or_false] at hb
      rcases hb with rfl | rfl | rfl <;> exact le_ofNat (by omega) (by omega)
    · simp only [List.mem_cons, List.not_mem_nil, or_false] at hb
      rcases hb with rfl | rfl | rfl | rfl <;> exact le_ofNat (by omega) (by omega)

theorem length_le_ofChars (s : List Char) : s.length ≤ (ofChars s).length := by
  induction s with
  | nil => exact Nat.le_refl _
  | cons c s ih =>
    have hc : 0 < (String.utf8EncodeChar c).length := by
      rw [String.length_utf8EncodeChar]
      exact c.utf8Size_pos
    rw [ofChars_cons, List.length_append, List.length_cons]
    omega

/-- The octets of characters spell these characters. -/
theorem text?_ofChars (s : List Char) : text? (ofChars s) = some (String.ofList s) := by
  have hspelt : (⟨(ofChars s).toArray⟩ : ByteArray) = (String.ofList s).toByteArray :=
    ByteArray.ext List.data_toByteArray.symm
  unfold text?
  rw [hspelt]
  exact dif_pos (String.ofList s).isValidUTF8

end MailDispatch.Text.Octets
