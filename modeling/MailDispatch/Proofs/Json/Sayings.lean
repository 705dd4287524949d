import MailDispatch.Proofs.Json.Contents
import MailDispatch.Proofs.Json.Nesting
import MailDispatch.Proofs.Json.Texts
import MailDispatch.Proofs.Time.ReadingBack

/-! # What a value says

Whatever a field reads is a whole number or a text, in one of its spellings. What is read of it
depends on the number or on the characters of the text alone, and the reader stands behind the
value then, as it does when it passes over the value.
-/
namespace MailDispatch.Json
open Text Octets Numeral Time

/-- What the value of a member says: a whole number, a text, or nothing that anybody asks for. -/
inductive Saying where
  | whole (n : Int)
  | text (t : String)
  | anything

inductive Spells : Saying → Octets → Prop where
  | whole (n : Int) : Spells (.whole n) (ofChars (ofInt n))
  | text {t : String} {w : Octets} (h : SpellsText t.toList w) :
      Spells (.text t) (34 :: (w ++ [34]))
  | anything {v : Octets} (h : WellFormed .value v) : Spells .anything v

/-- What a field of a kind takes from a saying, if it takes any of it. -/
def Kind.taken? : Kind → Saying → Option Scalar
  | .whole, .whole n => if Bounds.int64.Contains n then some (.whole n) else none
  | .text, .text t => some (.text t)
  | .time, .text t => (Reader.read t.toList).toOption.map .time
  | _, _ => none

theorem Saying.ne_anything_of_taken {k : Kind} {c : Saying} {v : Scalar}
    (h : k.taken? c = some v) : c ≠ .anything := by
  rintro rfl
  cases k <;> cases h

/-! ## Sayings are values -/

theorem isUnsigned_ofNat (n : Nat) : IsUnsigned (ofChars (ofNat n)) := by
  have hwhole : IsWholePart (ofChars (ofNat n)) := by
    by_cases hn : n = 0
    · rw [hn]
      exact .zero
    · obtain ⟨d, cs, hcs, hpos, hd⟩ := exists_ofNat_cons (Nat.pos_of_ne_zero hn)
      have hascii : (Nat.digitChar d).toNat ≤ 127 := ascii_of_mem_ofNat (n := n) (by simp [hcs])
      have hoctets : ofChars (ofNat n) = ofAscii (Nat.digitChar d) :: ofChars cs := by
        rw [hcs, ofChars_cons_of_ascii hascii]
      have hzero : ofAscii (Nat.digitChar d) ≠ 48 := by
        intro heq
        have hvalue := digitValue_digitChar hd
        rw [heq] at hvalue
        exact absurd hvalue (Nat.ne_of_lt hpos)
      rw [hoctets]
      refine .digits (isDigit_digitChar hd) hzero fun b hb => ?_
      exact isDigit_of_mem_ofChars (n := n) (by rw [hoctets]; exact List.mem_cons_of_mem _ hb)
  have hparts := IsUnsigned.parts hwhole .none .none
  rwa [List.append_nil, List.append_nil] at hparts

theorem Spells.wellFormed {c : Saying} {v : Octets} (h : Spells c v) : WellFormed .value v := by
  cases h with
  | whole n =>
    cases n with
    | ofNat n => exact .unsigned (isUnsigned_ofNat n)
    | negSucc n => exact .negative (isUnsigned_ofNat (n + 1))
  | text h => exact .text h.passes
  | anything h => exact h

theorem Spells.exists_cons {c : Saying} {v : Octets} (h : Spells c v) :
    ∃ b w, v = b :: w ∧ isBlank b = false ∧ b ≠ 93 :=
  h.wellFormed.exists_cons

/-! ## One value has one saying -/

theorem ofChars_injective : Function.Injective ofChars := by
  intro s t h
  have htext := congrArg text? h
  rw [text?_ofChars, text?_ofChars] at htext
  exact String.ofList_injective (Option.some.inj htext)

theorem ofInt_injective : Function.Injective ofInt := by
  intro n m h
  have hread : ∀ k : Int, min n m ≤ k → k ≤ max n m →
      Numeral.read ⟨min 0 (min n m), max 0 (max n m)⟩ (ofInt k) = .ok k := by
    intro k hlow hhigh
    apply read_ofInt
    · constructor <;> dsimp only <;> omega
    · constructor <;> dsimp only <;> omega
  have hn := hread n (by omega) (by omega)
  have hm := hread m (by omega) (by omega)
  rw [h, hm] at hn
  exact (Except.ok.inj hn).symm

theorem exists_ofChars_ofInt_ne (n : Int) :
    ∃ b bs, ofChars (ofInt n) = b :: bs ∧ isBlank b = false ∧ b ≠ 34 := by
  cases n with
  | ofNat n =>
    obtain ⟨b, bs, hcs, hdigit⟩ := exists_ofChars_ofNat n
    refine ⟨b, bs, hcs, isBlank_of_isDigit hdigit, ?_⟩
    rintro rfl
    cases hdigit
  | negSucc n => exact ⟨45, ofChars (ofNat (n + 1)), rfl, rfl, by decide⟩

theorem Spells.unique {c c' : Saying} {v : Octets} (h : Spells c v) (h' : Spells c' v)
    (hc : c ≠ .anything) (hc' : c' ≠ .anything) : c = c' := by
  have hdifferent : ∀ (n : Int) (w : Octets), ofChars (ofInt n) ≠ 34 :: w := by
    intro n w heq
    obtain ⟨b, bs, hbs, -, hb⟩ := exists_ofChars_ofInt_ne n
    rw [hbs] at heq
    exact hb (List.cons.inj heq).1
  cases h with
  | whole n =>
    generalize hv : ofChars (ofInt n) = v at h'
    cases h' with
    | whole m => rw [ofInt_injective (ofChars_injective hv)]
    | text => exact absurd hv (hdifferent n _)
    | anything => exact absurd rfl hc'
  | @text t w hw =>
    generalize hv : 34 :: (w ++ [34]) = v at h'
    cases h' with
    | whole m => exact absurd hv.symm (hdifferent m _)
    | @text t' w' hw' =>
      have heq : w ++ 34 :: [] = w' ++ 34 :: [] := (List.cons.inj hv).2
      have hread := text_spelled hw []
      rw [heq, text_spelled hw' []] at hread
      obtain ⟨htext, -⟩ := Prod.mk.inj (Except.ok.inj hread)
      rw [String.ofList_toList, String.ofList_toList] at htext
      rw [htext]
    | anything => exact absurd rfl hc'
  | anything => exact absurd rfl hc

/-! ## What a field takes is what it reads -/

theorem Kind.read_cons {k : Kind} {l : Octets} (hl : Blanks l) {b : UInt8} (hb : isBlank b = false)
    (s : Octets) : k.read (l ++ b :: s) = k.read (b :: s) := by
  unfold Kind.read
  rw [skipBlanks_append_cons hl hb, skipBlanks_cons hb]

theorem textValue_spelled (k : Kind) {t : String} {w : Octets} (h : SpellsText t.toList w)
    (s : Octets) : textValue k (34 :: (w ++ 34 :: s)) = .ok (t, s) := by
  have hread := text_spelled h s
  rw [String.ofList_toList] at hread
  exact hread

/-- A field reads what it takes from a saying, in each spelling of it. -/
theorem Kind.read_spelled {k : Kind} {c : Saying} {x : Scalar} (hx : k.taken? c = some x)
    {v : Octets} (hv : Spells c v) {l s : Octets} (hl : Blanks l) (hs : EndsNumber s) :
    k.read (l ++ (v ++ s)) = .ok (x, s) := by
  cases hv with
  | whole n =>
    cases k with
    | whole =>
      unfold Kind.taken? at hx
      dsimp only at hx
      split at hx
      · next hn =>
        obtain rfl := Option.some.inj hx
        obtain ⟨b, bs, hbs, hb, -⟩ := exists_ofChars_ofInt_ne n
        have hread := wholeNumber_written hs hn
        rw [hbs, List.cons_append] at hread ⊢
        rw [Kind.read_cons hl hb]
        simp only [Kind.read, skipBlanks_cons hb, List.isEmpty_cons, Bool.false_eq_true, if_false,
          hread, bind, Except.bind]
        rfl
      · cases hx
    | text => cases hx
    | time => cases hx
  | @text t w h =>
    have hquote : isBlank 34 = false := rfl
    have hread := textValue_spelled k h s
    rw [List.cons_append, List.append_assoc, List.singleton_append, Kind.read_cons hl hquote]
    cases k with
    | whole => cases hx
    | text =>
      obtain rfl := Option.some.inj hx
      simp only [Kind.read, skipBlanks_cons hquote, List.isEmpty_cons, Bool.false_eq_true, if_false,
        hread, bind, Except.bind]
      rfl
    | time =>
      simp only [Kind.read, skipBlanks_cons hquote, List.isEmpty_cons, Bool.false_eq_true, if_false,
        hread, bind, Except.bind]
      unfold Kind.taken? at hx
      dsimp only at hx
      cases ht : Reader.read t.toList with
      | error p =>
        rw [ht] at hx
        cases hx
      | ok time =>
        rw [ht] at hx
        obtain rfl := Option.some.inj hx
        rfl
  | anything => cases k <;> cases hx

theorem text_of_textValue {k : Kind} {s rest : Octets} {t : String}
    (h : textValue k s = .ok (t, rest)) :
    ∃ w, SpellsText t.toList w ∧ s = 34 :: (w ++ 34 :: rest) := by
  cases s with
  | nil => cases h
  | cons b s =>
    simp only [textValue] at h
    split at h
    · next hb =>
      obtain ⟨w, hw, rfl⟩ := spelled_of_text h
      exact ⟨w, hw, by rw [hb]⟩
    · cases h

theorem skipValue_text {l w : Octets} (hl : Blanks l) (hw : PassesText w) (rest : Octets) :
    skipValue (l ++ 34 :: (w ++ 34 :: rest)) = .ok rest := by
  have hopening : opening (l ++ 34 :: (w ++ 34 :: rest)) = .ok (.scalar rest) := by
    have hskip := skipText_passes hw rest
    unfold opening
    rw [skipBlanks_append_cons hl rfl]
    simp only [hskip]
    rfl
  simp only [skipValue, skipNested, hopening]

/-- Whatever a field reads says what it takes, and it can be passed over just as well. -/
theorem Kind.spelled_of_read {k : Kind} {x : Scalar} {s rest : Octets}
    (h : k.read s = .ok (x, rest)) : ∃ l c v, Blanks l ∧ Spells c v ∧ k.taken? c = some x ∧
      s = l ++ (v ++ rest) ∧ skipValue s = .ok rest := by
  obtain ⟨l, hl, hs⟩ := blanks_of_skipBlanks (s := s) rfl
  unfold Kind.read at h
  dsimp only at h
  split at h
  · cases h
  · have htext : ∀ t, textValue k (skipBlanks s) = .ok (t, rest) → ∃ w, SpellsText t.toList w ∧
        s = l ++ (34 :: (w ++ [34]) ++ rest) ∧ skipValue s = .ok rest := by
      intro t ht
      obtain ⟨w, hw, hafter⟩ := text_of_textValue ht
      rw [hafter] at hs
      refine ⟨w, hw, ?_, ?_⟩
      · rw [hs, List.cons_append, List.append_assoc, List.singleton_append]
      · rw [hs]
        exact skipValue_text hl hw.passes rest
    cases k with
    | whole =>
      obtain ⟨⟨n, left⟩, hread, hvalue⟩ := ok_of_bind h
      obtain ⟨rfl, rfl⟩ := Prod.mk.inj (Except.ok.inj hvalue)
      obtain ⟨hafter, hend⟩ := written_of_wholeNumber hread
      have hn := contains_of_wholeNumber hread
      rw [hafter] at hs
      refine ⟨l, .whole n, _, hl, .whole n, if_pos hn, hs, ?_⟩
      rw [hs]
      exact skipValue_passes hl (Spells.whole n).wellFormed hend
    | text =>
      obtain ⟨⟨t, left⟩, hread, hvalue⟩ := ok_of_bind h
      obtain ⟨rfl, rfl⟩ := Prod.mk.inj (Except.ok.inj hvalue)
      obtain ⟨w, hw, hs, hskip⟩ := htext t hread
      exact ⟨l, .text t, _, hl, .text hw, rfl, hs, hskip⟩
    | time =>
      obtain ⟨⟨t, left⟩, hread, hvalue⟩ := ok_of_bind h
      dsimp only at hvalue
      split at hvalue
      · next time ht =>
        obtain ⟨rfl, rfl⟩ := Prod.mk.inj (Except.ok.inj hvalue)
        obtain ⟨w, hw, hs, hskip⟩ := htext t hread
        refine ⟨l, .text t, _, hl, .text hw, ?_, hs, hskip⟩
        simp only [Kind.taken?, ht]
        rfl
      · cases hvalue

/-- A field that reads a value reads just that value, and takes what the value says. -/
theorem Kind.taken_of_read {k : Kind} {c : Saying} {v : Octets} (hv : Spells c v) {l s : Octets}
    (hl : Blanks l) (hs : EndsNumber s) {x : Scalar} {rest : Octets}
    (h : k.read (l ++ (v ++ s)) = .ok (x, rest)) :
    rest = s ∧ (c = .anything ∨ k.taken? c = some x) := by
  obtain ⟨l', c', v', hl', hv', hx, heq, hskip⟩ := Kind.spelled_of_read h
  rw [skipValue_passes hl hv.wellFormed hs] at hskip
  obtain rfl := Except.ok.inj hskip
  refine ⟨rfl, ?_⟩
  by_cases hc : c = .anything
  · exact .inl hc
  · have hc' := Saying.ne_anything_of_taken hx
    obtain ⟨b, w, rfl, hb, -⟩ := hv.exists_cons
    obtain ⟨b', w', rfl, hb', -⟩ := hv'.exists_cons
    have hskip := congrArg skipBlanks heq
    rw [List.cons_append, List.cons_append, skipBlanks_append_cons hl hb,
      skipBlanks_append_cons hl' hb', ← List.cons_append, ← List.cons_append] at hskip
    rw [List.append_cancel_right hskip] at hv
    rw [hv.unique hv' hc hc']
    exact .inr hx

/-! ## What is written -/

def Scalar.saying : Scalar → Saying
  | .whole n => .whole n
  | .text s => .text s
  | .time t => .text (String.ofList t.written)

/-- A field takes from its written form any value that it can hold. -/
theorem Kind.taken_saying {k : Kind} {v : Scalar} (h : k.Holds v) :
    k.taken? v.saying = some v := by
  cases k with
  | whole =>
    cases v with
    | whole n => exact if_pos h
    | text s => exact absurd h id
    | time t => exact absurd h id
  | text =>
    cases v with
    | whole n => exact absurd h id
    | text s => rfl
    | time t => exact absurd h id
  | time =>
    cases v with
    | whole n => exact absurd h id
    | text s => exact absurd h id
    | time t =>
      simp only [Scalar.saying, Kind.taken?, String.toList_ofList, Reader.read_written]
      rfl

theorem ofChars_writtenText (s : List Char) :
    ofChars (writtenText s) = 34 :: (ofChars (s.flatMap writtenChar) ++ [34]) := by
  rw [writtenText, List.cons_append, ofChars_cons_of_ascii (by decide), ofChars_append]
  rfl

theorem writtenText_time (t : Timestamp) : Scalar.written (.time t) = writtenText t.written := by
  have hmarks : ['-', '+', 'T', ':', '.', 'Z'].all isOrdinary = true := by decide
  have hordinary : ∀ c ∈ t.written, isOrdinary c = true := fun c hc =>
    Timestamp.of_mem_written (P := fun c => isOrdinary c = true) (by decide)
      (List.all_eq_true.mp hmarks) hc
  rw [writtenText, flatMap_writtenChar_of_ordinary hordinary]
  rfl

theorem spells_writtenText (s : String) : Spells (.text s) (ofChars (writtenText s.toList)) := by
  rw [ofChars_writtenText]
  exact .text (spellsText_written s.toList)

theorem Scalar.spells_written (v : Scalar) : Spells v.saying (ofChars v.written) := by
  cases v with
  | whole n => exact .whole n
  | text s => exact spells_writtenText s
  | time t =>
    have hwritten := spells_writtenText (String.ofList t.written)
    rw [String.toList_ofList] at hwritten
    rw [writtenText_time]
    exact hwritten

end MailDispatch.Json
