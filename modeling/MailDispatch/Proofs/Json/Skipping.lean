import MailDispatch.Proofs.Json.Numbers
import MailDispatch.Proofs.Json.Spelling

/-! # The tokens that are passed over

A text or a number that nobody asks for is only passed over. What is taken for one is described
here by its parts, apart from the reader: the reader passes over each of them and stands right
behind it then, and it passes over nothing else.
-/
namespace MailDispatch.Json
open Text Octets

/-! ## Blanks -/

/-- Octets that may stand between two tokens. -/
def Blanks (s : Octets) : Prop := ∀ b ∈ s, isBlank b = true

theorem Blanks.nil : Blanks [] := by
  intro b hb
  cases hb

theorem Blanks.append {l m : Octets} (hl : Blanks l) (hm : Blanks m) : Blanks (l ++ m) := by
  intro b hb
  rcases List.mem_append.mp hb with hb | hb
  · exact hl b hb
  · exact hm b hb

theorem skipBlanks_cons {b : UInt8} (h : isBlank b = false) (rest : Octets) :
    skipBlanks (b :: rest) = b :: rest :=
  List.dropWhile_cons_of_neg (by simp [h])

theorem isBlank_of_isDigit {b : UInt8} (h : isDigit b = true) : isBlank b = false := by
  cases hblank : isBlank b with
  | false => rfl
  | true =>
    simp only [isBlank, Bool.or_eq_true, beq_iff_eq] at hblank
    rcases hblank with ((rfl | rfl) | rfl) | rfl <;> cases h

theorem skipBlanks_append {l : Octets} (h : Blanks l) (s : Octets) :
    skipBlanks (l ++ s) = skipBlanks s :=
  List.dropWhile_append_of_pos h

theorem skipBlanks_append_cons {l : Octets} (h : Blanks l) {b : UInt8} (hb : isBlank b = false)
    (rest : Octets) : skipBlanks (l ++ b :: rest) = b :: rest := by
  rw [skipBlanks_append h, skipBlanks_cons hb]

/-- Nothing but blanks stands in front of what is left when they are dropped. -/
theorem blanks_of_skipBlanks {s t : Octets} (h : skipBlanks s = t) :
    ∃ l, Blanks l ∧ s = l ++ t := by
  refine ⟨s.takeWhile isBlank, List.all_eq_true.mp List.all_takeWhile, ?_⟩
  rw [← h]
  exact List.takeWhile_append_dropWhile.symm

theorem Blanks.endsNumber {l : Octets} (hl : Blanks l) {s : Octets} (hs : EndsNumber s) :
    EndsNumber (l ++ s) := by
  cases l with
  | nil => exact hs
  | cons b l =>
    have hb := hl b List.mem_cons_self
    simp only [isBlank, Bool.or_eq_true, beq_iff_eq] at hb
    rintro c ⟨⟩
    rcases hb with ((rfl | rfl) | rfl) | rfl
    all_goals decide

/-! ## Texts -/

/-- What may stand between the quotes of a text that is passed over. It need not spell
characters: the halves of surrogate pairs may stand alone, and octets need not be UTF-8. -/
inductive PassesText : Octets → Prop where
  | nil : PassesText []
  | plain {b : UInt8} {w : Octets} (hb : isPlain b = true) (h : PassesText w) : PassesText (b :: w)
  | letter {b : UInt8} {w : Octets} (hb : (letterEscape? b).isSome = true) (h : PassesText w) :
      PassesText (92 :: b :: w)
  | number {n : Nat} {e w : Octets} (he : SpellsNumber n e) (h : PassesText w) :
      PassesText (92 :: 117 :: (e ++ w))

theorem skipTextFuel_passes {w : Octets} (h : PassesText w) {fuel : Nat} (hfuel : w.length < fuel)
    (rest : Octets) : skipTextFuel fuel (w ++ 34 :: rest) = .ok rest := by
  induction h generalizing fuel with
  | nil =>
    obtain ⟨fuel, rfl⟩ := Nat.exists_eq_add_one_of_ne_zero (Nat.ne_of_gt hfuel)
    rfl
  | @plain b w hb _ ih =>
    obtain ⟨fuel, rfl⟩ := Nat.exists_eq_add_one_of_ne_zero (Nat.ne_of_gt (Nat.zero_lt_of_lt hfuel))
    have hrest := ih (Nat.lt_of_succ_lt_succ hfuel)
    simp only [isPlain, Bool.and_eq_true, decide_eq_true_eq, bne_iff_ne] at hb
    obtain ⟨⟨hlow, hquote⟩, hslash⟩ := hb
    rw [List.cons_append, skipTextFuel, if_neg hquote, if_neg hslash,
      if_neg (UInt8.not_lt.mpr hlow)]
    exact hrest
  | @letter b w hb _ ih =>
    obtain ⟨fuel, rfl⟩ := Nat.exists_eq_add_one_of_ne_zero (Nat.ne_of_gt (Nat.zero_lt_of_lt hfuel))
    simp only [List.length_cons] at hfuel
    have hrest := ih (by omega : w.length < fuel)
    simp only [List.cons_append, skipTextFuel, skipEscape, hb, if_true]
    exact hrest
  | @number n e w he _ ih =>
    obtain ⟨fuel, rfl⟩ := Nat.exists_eq_add_one_of_ne_zero (Nat.ne_of_gt (Nat.zero_lt_of_lt hfuel))
    simp only [List.length_cons, List.length_append] at hfuel
    have hrest := ih (by omega : w.length < fuel)
    have hmark : letterEscape? 117 = none := by decide
    simp only [List.cons_append, List.append_assoc, skipTextFuel, skipEscape, hmark,
      hexEscape_spelled he, if_true]
    exact hrest

theorem passes_of_skipTextFuel {fuel : Nat} {s rest : Octets}
    (h : skipTextFuel fuel s = .ok rest) : ∃ w, PassesText w ∧ s = w ++ 34 :: rest := by
  induction fuel generalizing s with
  | zero => cases h
  | succ fuel ih =>
    cases s with
    | nil => cases h
    | cons b s =>
      unfold skipTextFuel at h
      split at h
      · next hquote =>
        obtain rfl := Except.ok.inj h
        exact ⟨[], .nil, by rw [hquote]; rfl⟩
      · next hquote =>
        split at h
        · next hslash =>
          subst hslash
          split at h
          · next after hescape =>
            obtain ⟨w, hw, rfl⟩ := ih h
            cases s with
            | nil => cases hescape
            | cons c s =>
              unfold skipEscape at hescape
              dsimp only at hescape
              split at hescape
              · next hc =>
                obtain rfl := Except.ok.inj hescape
                exact ⟨92 :: c :: w, .letter hc hw, rfl⟩
              · split at hescape
                · next hmark =>
                  subst hmark
                  split at hescape
                  · next n left hnumber =>
                    obtain rfl := Except.ok.inj hescape
                    obtain ⟨e, he, rfl⟩ := spelled_of_hexEscape hnumber
                    refine ⟨92 :: 117 :: (e ++ w), .number he hw, ?_⟩
                    rw [List.cons_append, List.cons_append, List.append_assoc]
                  · cases hescape
                · cases hescape
          · cases h
        · next hslash =>
          split at h
          · cases h
          · next hlow =>
            obtain ⟨w, hw, rfl⟩ := ih h
            refine ⟨b :: w, .plain ?_ hw, rfl⟩
            simp only [isPlain, Bool.and_eq_true, decide_eq_true_eq, bne_iff_ne]
            exact ⟨⟨UInt8.not_lt.mp hlow, hquote⟩, hslash⟩

theorem skipText_passes {w : Octets} (h : PassesText w) (rest : Octets) :
    skipText (w ++ 34 :: rest) = .ok rest := by
  apply skipTextFuel_passes h
  rw [List.length_append]
  omega

theorem passes_of_skipText {s rest : Octets} (h : skipText s = .ok rest) :
    ∃ w, PassesText w ∧ s = w ++ 34 :: rest :=
  passes_of_skipTextFuel h

theorem passesText_row {row w : Octets} (hrow : ∀ b ∈ row, isPlain b = true) (h : PassesText w) :
    PassesText (row ++ w) := by
  induction row with
  | nil => exact h
  | cons b row ih =>
    exact .plain (hrow b List.mem_cons_self) (ih fun c hc => hrow c (List.mem_cons_of_mem b hc))

/-- Whatever spells characters is passed over as well. -/
theorem SpellsText.passes {s : List Char} {w : Octets} (h : SpellsText s w) : PassesText w := by
  induction h with
  | nil => exact .nil
  | @cons c cs w x hc _ ih =>
    cases hc with
    | itself hordinary => exact passesText_row (fun b hb => isPlain_of_mem_encode hordinary hb) ih
    | escape he =>
      cases he with
      | letter hb => exact .letter (by rw [hb]; rfl) ih
      | number he => exact .number he ih
      | pair _ _ _ hw hx =>
        have hsecond := PassesText.number hx ih
        have hfirst := PassesText.number hw hsecond
        simpa only [List.cons_append, List.append_assoc] using hfirst

/-! ## Numbers -/

def Digits (ds : Octets) : Prop := ∀ b ∈ ds, isDigit b = true

/-- The whole part of a number, which has no zero in front. -/
inductive IsWholePart : Octets → Prop where
  | zero : IsWholePart [48]
  | digits {b : UInt8} {ds : Octets} (hb : isDigit b = true) (hzero : b ≠ 48) (hds : Digits ds) :
      IsWholePart (b :: ds)

inductive IsFractionPart : Octets → Prop where
  | none : IsFractionPart []
  | point {b : UInt8} {ds : Octets} (hb : isDigit b = true) (hds : Digits ds) :
      IsFractionPart (46 :: b :: ds)

inductive IsExponentSign : Octets → Prop where
  | none : IsExponentSign []
  | plus : IsExponentSign [43]
  | minus : IsExponentSign [45]

inductive IsExponentPart : Octets → Prop where
  | none : IsExponentPart []
  | mark {m b : UInt8} {sign ds : Octets} (hm : isExponentMark m = true)
      (hsign : IsExponentSign sign) (hb : isDigit b = true) (hds : Digits ds) :
      IsExponentPart (m :: (sign ++ b :: ds))

inductive IsUnsigned : Octets → Prop where
  | parts {w f e : Octets} (hw : IsWholePart w) (hf : IsFractionPart f) (he : IsExponentPart e) :
      IsUnsigned (w ++ (f ++ e))

theorem dropWhile_digits {ds rest : Octets} (hds : Digits ds)
    (hrest : ∀ b ∈ rest.head?, isDigit b = false) : (ds ++ rest).dropWhile isDigit = rest := by
  rw [List.dropWhile_append_of_pos hds]
  cases rest with
  | nil => rfl
  | cons b rest => exact List.dropWhile_cons_of_neg (by simp [hrest b rfl])

theorem exists_digits (s : Octets) : ∃ ds, Digits ds ∧ s = ds ++ s.dropWhile isDigit :=
  ⟨s.takeWhile isDigit, List.all_eq_true.mp List.all_takeWhile,
    List.takeWhile_append_dropWhile.symm⟩

theorem isDigit_of_isExponentMark {b : UInt8} (h : isExponentMark b = true) :
    isDigit b = false := by
  simp only [isExponentMark, Bool.or_eq_true, beq_iff_eq] at h
  rcases h with rfl | rfl
  · decide
  · decide

theorem ne_point_of_isExponentMark {b : UInt8} (h : isExponentMark b = true) : b ≠ 46 := by
  rintro rfl
  cases h

section
variable {rest : Octets} (hrest : EndsNumber rest)
include hrest

theorem skipExponentPart_passes {e : Octets} (h : IsExponentPart e) :
    skipExponentPart (e ++ rest) = .ok rest := by
  cases h with
  | none =>
    cases rest with
    | nil => rfl
    | cons b rest =>
      have hmark := (hrest b rfl).2.2
      simp [skipExponentPart, hmark]
  | @mark m b sign ds hm hsign hb hds =>
    have hdigits : (ds ++ rest).dropWhile isDigit = rest :=
      dropWhile_digits hds fun c hc => (hrest c hc).1
    have hsigned : (exponentSign (sign ++ b :: (ds ++ rest))).2 = b :: (ds ++ rest) := by
      cases hsign with
      | none =>
        unfold exponentSign
        split
        · next heq =>
          obtain ⟨rfl, -⟩ := List.cons.inj heq
          cases hb
        · next heq =>
          obtain ⟨rfl, -⟩ := List.cons.inj heq
          cases hb
        · rfl
      | plus => rfl
      | minus => rfl
    simp only [List.cons_append, List.append_assoc, skipExponentPart, hm, if_true, skipExponent,
      hsigned, hb, hdigits]

theorem head_exponentPart {e : Octets} (h : IsExponentPart e) {b : UInt8}
    (hb : b ∈ (e ++ rest).head?) : isDigit b = false ∧ b ≠ 46 := by
  cases h with
  | none =>
    have hend := hrest b hb
    exact ⟨hend.1, hend.2.1⟩
  | mark hm =>
    obtain rfl := Option.some.inj hb
    exact ⟨isDigit_of_isExponentMark hm, ne_point_of_isExponentMark hm⟩

theorem skipNumberTail_passes {f e : Octets} (hf : IsFractionPart f) (he : IsExponentPart e) :
    skipNumberTail (f ++ (e ++ rest)) = .ok rest := by
  have htail := skipExponentPart_passes hrest he
  cases hf with
  | none =>
    unfold skipNumberTail
    split
    · next heq =>
      have hhead : (46 : UInt8) ∈ (e ++ rest).head? := by
        rw [List.nil_append] at heq
        rw [heq]
        rfl
      exact absurd rfl (head_exponentPart hrest he hhead).2
    · exact htail
  | @point b ds hb hds =>
    have hdigits : (ds ++ (e ++ rest)).dropWhile isDigit = e ++ rest :=
      dropWhile_digits hds fun c hc => (head_exponentPart hrest he hc).1
    simp only [List.cons_append, skipNumberTail, hb, if_true, hdigits]
    exact htail

theorem head_fractionPart {f e : Octets} (hf : IsFractionPart f) (he : IsExponentPart e)
    {b : UInt8} (hb : b ∈ (f ++ (e ++ rest)).head?) : isDigit b = false := by
  cases hf with
  | none => exact (head_exponentPart hrest he hb).1
  | point =>
    obtain rfl := Option.some.inj hb
    rfl

theorem skipUnsigned_passes {w : Octets} (h : IsUnsigned w) :
    skipUnsigned (w ++ rest) = .ok rest := by
  cases h with
  | @parts w f e hw hf he =>
    have htail := skipNumberTail_passes hrest hf he
    have hhead : ∀ b ∈ (f ++ (e ++ rest)).head?, isDigit b = false :=
      fun b hb => head_fractionPart hrest hf he hb
    rw [List.append_assoc, List.append_assoc]
    cases hw with
    | zero =>
      generalize f ++ (e ++ rest) = x at hhead htail
      cases x with
      | nil => exact htail
      | cons d x =>
        simp only [List.cons_append, List.nil_append, skipUnsigned, if_true, hhead d rfl]
        exact htail
    | @digits b ds hb hzero hds =>
      simp only [List.cons_append, skipUnsigned, if_neg hzero, hb, if_true,
        dropWhile_digits hds hhead]
      exact htail

end

theorem passes_of_skipExponentPart {s rest : Octets} (h : skipExponentPart s = .ok rest) :
    ∃ e, IsExponentPart e ∧ s = e ++ rest := by
  cases s with
  | nil =>
    obtain rfl := Except.ok.inj h
    exact ⟨[], .none, rfl⟩
  | cons m s =>
    unfold skipExponentPart at h
    dsimp only at h
    split at h
    · next hm =>
      have hsign : ∃ sign, IsExponentSign sign ∧ s = sign ++ (exponentSign s).2 := by
        unfold exponentSign
        split
        · exact ⟨[43], .plus, rfl⟩
        · exact ⟨[45], .minus, rfl⟩
        · exact ⟨[], .none, rfl⟩
      obtain ⟨sign, hsign, hs⟩ := hsign
      unfold skipExponent at h
      split at h
      · next b after hafter =>
        split at h
        · next hb =>
          obtain rfl := Except.ok.inj h
          obtain ⟨ds, hds, hsplit⟩ := exists_digits after
          refine ⟨m :: (sign ++ b :: ds), .mark hm hsign hb hds, ?_⟩
          rw [List.cons_append, List.append_assoc, List.cons_append, ← hsplit, ← hafter, ← hs]
        · cases h
      · cases h
    · obtain rfl := Except.ok.inj h
      exact ⟨[], .none, rfl⟩

theorem passes_of_skipNumberTail {s rest : Octets} (h : skipNumberTail s = .ok rest) :
    ∃ f e, IsFractionPart f ∧ IsExponentPart e ∧ s = f ++ (e ++ rest) := by
  unfold skipNumberTail at h
  split at h
  · split at h
    · next b after =>
      split at h
      · next hb =>
        obtain ⟨e, he, hafter⟩ := passes_of_skipExponentPart h
        obtain ⟨ds, hds, hsplit⟩ := exists_digits after
        refine ⟨46 :: b :: ds, e, .point hb hds, he, ?_⟩
        rw [hafter] at hsplit
        rw [hsplit, List.cons_append, List.cons_append]
      · cases h
    · cases h
  · obtain ⟨e, he, rfl⟩ := passes_of_skipExponentPart h
    exact ⟨[], e, .none, he, rfl⟩

theorem passes_of_skipUnsigned {s rest : Octets} (h : skipUnsigned s = .ok rest) :
    ∃ w, IsUnsigned w ∧ s = w ++ rest := by
  cases s with
  | nil => cases h
  | cons b s =>
    unfold skipUnsigned at h
    dsimp only at h
    split at h
    · next hzero =>
      subst hzero
      split at h
      · split at h
        · cases h
        · obtain ⟨f, e, hf, he, hs⟩ := passes_of_skipNumberTail h
          refine ⟨[48] ++ (f ++ e), .parts .zero hf he, ?_⟩
          rw [hs, List.append_assoc, List.append_assoc, List.singleton_append]
      · obtain rfl := Except.ok.inj h
        exact ⟨[48] ++ ([] ++ []), .parts .zero .none .none, rfl⟩
    · next hzero =>
      split at h
      · next hb =>
        obtain ⟨f, e, hf, he, hafter⟩ := passes_of_skipNumberTail h
        obtain ⟨ds, hds, hsplit⟩ := exists_digits s
        refine ⟨(b :: ds) ++ (f ++ e), .parts (.digits hb hzero hds) hf he, ?_⟩
        rw [hafter] at hsplit
        rw [hsplit, List.append_assoc, List.append_assoc, List.cons_append]
      · cases h

end MailDispatch.Json
