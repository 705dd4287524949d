import MailDispatch.Proofs.Json.Skipping

/-! # The values that are passed over

A value is a word, a number, a text, or a list or an object of such values, with blanks between
the tokens. The reader keeps the open brackets on a stack. It passes over every value of this
grammar, however deep, and whatever it passes over is a value of this grammar.
-/
namespace MailDispatch.Json
open Text Octets

def Bracket.start : Bracket → UInt8
  | .list => 91
  | .object => 123

/-- What stands in brackets before a value, apart from blanks: nothing in a list, and a key and
a colon in an object. -/
inductive Bracket.Lead : Bracket → Octets → Prop where
  | element : Lead .list []
  | key {l t m : Octets} (hl : Blanks l) (ht : PassesText t) (hm : Blanks m) :
      Lead .object (l ++ 34 :: (t ++ 34 :: (m ++ [58])))

/-- A value, or what stands in brackets that are not empty. -/
inductive Part where
  | value
  | items (b : Bracket)

/-- The grammar of documents. -/
inductive WellFormed : Part → Octets → Prop where
  | null : WellFormed .value [110, 117, 108, 108]
  | yes : WellFormed .value [116, 114, 117, 101]
  | no : WellFormed .value [102, 97, 108, 115, 101]
  | unsigned {w : Octets} (h : IsUnsigned w) : WellFormed .value w
  | negative {w : Octets} (h : IsUnsigned w) : WellFormed .value (45 :: w)
  | text {w : Octets} (h : PassesText w) : WellFormed .value (34 :: (w ++ [34]))
  | empty (b : Bracket) {l : Octets} (h : Blanks l) :
      WellFormed .value (b.start :: (l ++ [b.closing]))
  | bracket (b : Bracket) {w : Octets} (h : WellFormed (.items b) w) :
      WellFormed .value (b.start :: (w ++ [b.closing]))
  | last {b : Bracket} {k l v m : Octets} (hk : b.Lead k) (hl : Blanks l)
      (hv : WellFormed .value v) (hm : Blanks m) : WellFormed (.items b) (k ++ (l ++ (v ++ m)))
  | more {b : Bracket} {k l v m w : Octets} (hk : b.Lead k) (hl : Blanks l)
      (hv : WellFormed .value v) (hm : Blanks m) (hw : WellFormed (.items b) w) :
      WellFormed (.items b) (k ++ (l ++ (v ++ (m ++ 44 :: w))))

/-! ## One step -/

theorem IsUnsigned.exists_cons {w : Octets} (h : IsUnsigned w) :
    ∃ b x, w = b :: x ∧ isDigit b = true := by
  cases h with
  | parts hw _ _ =>
    cases hw with
    | zero => exact ⟨48, _, rfl, rfl⟩
    | digits hb => exact ⟨_, _, rfl, hb⟩

theorem WellFormed.exists_cons {v : Octets} (h : WellFormed .value v) :
    ∃ b x, v = b :: x ∧ isBlank b = false ∧ b ≠ 93 := by
  cases h with
  | null => exact ⟨_, _, rfl, by decide, by decide⟩
  | yes => exact ⟨_, _, rfl, by decide, by decide⟩
  | no => exact ⟨_, _, rfl, by decide, by decide⟩
  | unsigned h =>
    obtain ⟨b, x, rfl, hb⟩ := h.exists_cons
    refine ⟨b, x, rfl, isBlank_of_isDigit hb, ?_⟩
    rintro rfl
    cases hb
  | negative => exact ⟨_, _, rfl, by decide, by decide⟩
  | text => exact ⟨_, _, rfl, by decide, by decide⟩
  | empty b => cases b <;> exact ⟨_, _, rfl, by decide, by decide⟩
  | bracket b => cases b <;> exact ⟨_, _, rfl, by decide, by decide⟩

theorem Bracket.start_opens (b : Bracket) {l : Octets} (hl : Blanks l) (rest : Octets) :
    opening (l ++ b.start :: rest) = .ok (.bracket b rest) := by
  have hblank : isBlank b.start = false := by cases b <;> rfl
  unfold opening
  rw [skipBlanks_append_cons hl hblank]
  cases b <;> rfl

theorem Bracket.isBlank_closing (b : Bracket) : isBlank b.closing = false := by
  cases b <;> rfl

theorem Bracket.endsNumber_closing (b : Bracket) (rest : Octets) :
    EndsNumber (b.closing :: rest) := by
  rintro c ⟨⟩
  cases b <;> decide

theorem endsNumber_comma (rest : Octets) : EndsNumber (44 :: rest) := by
  rintro b ⟨⟩
  decide

theorem skipNested_closing (stage : Stage) (hstage : stage ≠ .value) (fuel : Nat) (b : Bracket)
    (open_ : List Bracket) {l : Octets} (hl : Blanks l) (s : Octets) :
    skipNested (fuel + 1) stage (b :: open_) (l ++ b.closing :: s) =
      skipNested fuel .closed open_ s := by
  cases stage with
  | value => exact absurd rfl hstage
  | opened =>
    simp only [skipNested, skipBlanks_append_cons hl b.isBlank_closing, if_true]
  | closed =>
    simp only [skipNested, skipBlanks_append_cons hl b.isBlank_closing, if_true]

theorem colon_spelled {l : Octets} (hl : Blanks l) (s : Octets) : colon (l ++ 58 :: s) = .ok s := by
  have hblank : isBlank 58 = false := rfl
  simp only [colon, skipBlanks_append_cons hl hblank, if_true]

theorem blanks_of_colon {s rest : Octets} (h : colon s = .ok rest) :
    ∃ l, Blanks l ∧ s = l ++ 58 :: rest := by
  unfold colon at h
  split at h
  · cases h
  · next b after hafter =>
    split at h
    · next hb =>
      obtain rfl := Except.ok.inj h
      obtain rfl := hb
      exact blanks_of_skipBlanks hafter
    · cases h

theorem skipKey_lead {b : Bracket} {k : Octets} (hk : b.Lead k) (s : Octets) :
    b.skipKey (k ++ s) = .ok s := by
  cases hk with
  | element => rfl
  | @key l t m hl ht hm =>
    have hassoc : l ++ 34 :: (t ++ 34 :: (m ++ [58])) ++ s =
        l ++ 34 :: (t ++ 34 :: (m ++ 58 :: s)) := by
      simp only [List.append_assoc, List.cons_append, List.nil_append]
    simp only [Bracket.skipKey, hassoc, Json.skipKey,
      skipBlanks_append_cons hl (by decide : isBlank 34 = false), if_true, skipText_passes ht, bind,
      Except.bind, colon_spelled hm]

theorem skipNested_comma (fuel : Nat) {b : Bracket} (open_ : List Bracket) {m k : Octets}
    (hm : Blanks m) (hk : b.Lead k) (s : Octets) :
    skipNested (fuel + 1) .closed (b :: open_) (m ++ 44 :: (k ++ s)) =
      skipNested fuel .value (b :: open_) s := by
  have hclosing : (44 : UInt8) ≠ b.closing := by cases b <;> decide
  simp only [skipNested, skipBlanks_append_cons hm (by decide : isBlank 44 = false),
    if_neg hclosing, if_true, skipKey_lead hk]

/-- Behind an opening bracket the blanks are dropped before it is clear that a value follows. -/
theorem skipNested_opened (fuel : Nat) {b : Bracket} (open_ : List Bracket) {k l v : Octets}
    (hk : b.Lead k) (hl : Blanks l) (hv : WellFormed .value v) (s : Octets) :
    ∃ l', Blanks l' ∧ skipNested (fuel + 1) .opened (b :: open_) (k ++ (l ++ (v ++ s))) =
      skipNested fuel .value (b :: open_) (l' ++ (v ++ s)) := by
  cases hk with
  | element =>
    obtain ⟨c, x, rfl, hc, hclosing⟩ := hv.exists_cons
    refine ⟨[], .nil, ?_⟩
    have hskip : skipBlanks (l ++ c :: (x ++ s)) = c :: (x ++ s) := skipBlanks_append_cons hl hc _
    have hne : c ≠ Bracket.list.closing := hclosing
    simp only [List.nil_append, List.cons_append, skipNested, hskip, if_neg hne, Bracket.skipKey,
      reduceCtorEq, if_false]
  | @key l₀ t m hl₀ ht hm =>
    refine ⟨l, hl, ?_⟩
    have hlead : Bracket.object.Lead ([] ++ 34 :: (t ++ 34 :: (m ++ [58]))) := .key .nil ht hm
    have hkey := skipKey_lead hlead (l ++ (v ++ s))
    simp only [List.nil_append, List.cons_append] at hkey
    have hne : (34 : UInt8) ≠ Bracket.object.closing := by decide
    simp only [List.append_assoc, List.cons_append] at hkey ⊢
    simp only [skipNested, skipBlanks_append_cons hl₀ (by decide : isBlank 34 = false), if_neg hne,
      hkey, reduceCtorEq, if_false]

/-! ## Passing over a value -/

/-- The reader gets behind a value, or behind the items of a bracket, in so many steps at most,
whatever brackets are open. -/
def Passed : Part → Octets → Prop
  | .value, v => ∃ k ≤ 2 * v.length, ∀ fuel open_ l s, Blanks l → EndsNumber s →
      skipNested (fuel + k) .value open_ (l ++ (v ++ s)) = skipNested fuel .closed open_ s
  | .items b, w => ∃ k ≤ 2 * w.length + 2, ∀ fuel open_ s,
      skipNested (fuel + k) .opened (b :: open_) (w ++ b.closing :: s) =
        skipNested fuel .closed open_ s ∧
      ∀ m, Blanks m →
        skipNested (fuel + k) .closed (b :: open_) (m ++ 44 :: (w ++ b.closing :: s)) =
          skipNested fuel .closed open_ s

theorem passed_of_opening {v : Octets} (hv : v ≠ [])
    (h : ∀ l s, Blanks l → EndsNumber s → opening (l ++ (v ++ s)) = .ok (.scalar s)) :
    Passed .value v := by
  have hpos := List.length_pos_iff.mpr hv
  refine ⟨1, by omega, fun fuel open_ l s hl hs => ?_⟩
  simp only [skipNested, h l s hl hs]

theorem passed_unsigned {w : Octets} (h : IsUnsigned w) : Passed .value w := by
  obtain ⟨b, x, rfl, hb⟩ := h.exists_cons
  apply passed_of_opening (List.cons_ne_nil b x)
  intro l s hl hs
  have hskip := skipUnsigned_passes hs h
  rw [List.cons_append] at hskip ⊢
  have hword : b ≠ 110 ∧ b ≠ 116 ∧ b ≠ 102 ∧ b ≠ 45 := by
    refine ⟨?_, ?_, ?_, ?_⟩ <;> rintro rfl <;> cases hb
  simp only [opening, skipBlanks_append_cons hl (isBlank_of_isDigit hb), if_neg hword.1,
    if_neg hword.2.1, if_neg hword.2.2.1, if_neg hword.2.2.2, hb, if_true, hskip]
  rfl

theorem passed_negative {w : Octets} (h : IsUnsigned w) : Passed .value (45 :: w) := by
  apply passed_of_opening (List.cons_ne_nil 45 w)
  intro l s hl hs
  have hskip := skipUnsigned_passes hs h
  have hblank : isBlank 45 = false := rfl
  simp only [List.cons_append, opening, skipBlanks_append_cons hl hblank]
  rw [if_neg (by decide), if_neg (by decide), if_neg (by decide), if_pos trivial, hskip]
  rfl

theorem passed_text {w : Octets} (h : PassesText w) : Passed .value (34 :: (w ++ [34])) := by
  apply passed_of_opening (List.cons_ne_nil _ _)
  intro l s hl hs
  have hskip := skipText_passes h s
  have hblank : isBlank 34 = false := rfl
  have hdigit : isDigit 34 = false := rfl
  simp only [List.cons_append, List.append_assoc, List.nil_append, opening,
    skipBlanks_append_cons hl hblank]
  rw [if_neg (by decide), if_neg (by decide), if_neg (by decide), if_neg (by decide),
    if_neg (by simp [hdigit]), if_pos trivial, hskip]
  rfl

theorem passed_word {b : UInt8} {w : Octets} (hblank : isBlank b = false)
    (h : ∀ s, opening (b :: (w ++ s)) = .ok (.scalar s)) : Passed .value (b :: w) := by
  apply passed_of_opening (List.cons_ne_nil _ _)
  intro l s hl _
  have hopening := h s
  unfold opening at hopening ⊢
  rw [List.cons_append, skipBlanks_append_cons hl hblank]
  rw [skipBlanks_cons hblank] at hopening
  exact hopening

theorem WellFormed.passed {p : Part} {w : Octets} (h : WellFormed p w) : Passed p w := by
  induction h with
  | null => exact passed_word rfl fun s => rfl
  | yes => exact passed_word rfl fun s => rfl
  | no => exact passed_word rfl fun s => rfl
  | unsigned h => exact passed_unsigned h
  | negative h => exact passed_negative h
  | text h => exact passed_text h
  | empty b hl =>
    refine ⟨2, ?_, fun fuel open_ l₀ s hl₀ _ => ?_⟩
    · simp only [List.length_cons, List.length_append]
      omega
    · have hclosing := skipNested_closing .opened (by decide) fuel b open_ hl s
      simp only [List.cons_append, List.append_assoc, List.nil_append] at hclosing ⊢
      rw [← hclosing]
      simp only [skipNested, b.start_opens hl₀]
  | @bracket b w _ ih =>
    obtain ⟨k, hk, hpass⟩ := ih
    refine ⟨k + 1, ?_, fun fuel open_ l s hl _ => ?_⟩
    · simp only [List.length_cons, List.length_append]
      omega
    · have hitems := (hpass fuel open_ s).1
      simp only [List.cons_append, List.append_assoc, List.nil_append] at hitems ⊢
      rw [← hitems, ← Nat.add_assoc]
      simp only [skipNested, b.start_opens hl]
  | @last b k l v m hk hl hv hm ih =>
    obtain ⟨n, hn, hpass⟩ := ih
    refine ⟨n + 2, ?_, fun fuel open_ s => ?_⟩
    · simp only [List.length_append]
      omega
    · have hend : EndsNumber (m ++ b.closing :: s) := hm.endsNumber (b.endsNumber_closing s)
      have hclosing := skipNested_closing .closed (by decide) fuel b open_ hm s
      have hfuel : fuel + (n + 2) = (fuel + 1 + n) + 1 := by omega
      rw [hfuel]
      simp only [List.append_assoc]
      constructor
      · obtain ⟨l', hl', hopened⟩ :=
          skipNested_opened (fuel + 1 + n) open_ hk hl hv (m ++ b.closing :: s)
        rw [hopened, hpass (fuel + 1) (b :: open_) l' _ hl' hend, hclosing]
      · intro m' hm'
        rw [skipNested_comma (fuel + 1 + n) open_ hm' hk,
          hpass (fuel + 1) (b :: open_) l _ hl hend, hclosing]
  | @more b k l v m w hk hl hv hm hw ih ihw =>
    obtain ⟨n, hn, hpass⟩ := ih
    obtain ⟨n', hn', hlater⟩ := ihw
    refine ⟨n' + n + 1, ?_, fun fuel open_ s => ?_⟩
    · simp only [List.length_append, List.length_cons]
      omega
    · have hend : EndsNumber (m ++ 44 :: (w ++ b.closing :: s)) :=
        hm.endsNumber (endsNumber_comma _)
      have hcomma := (hlater fuel open_ s).2 m hm
      have hfuel : fuel + (n' + n + 1) = (fuel + n' + n) + 1 := by omega
      rw [hfuel]
      simp only [List.append_assoc, List.cons_append]
      constructor
      · obtain ⟨l', hl', hopened⟩ :=
          skipNested_opened (fuel + n' + n) open_ hk hl hv (m ++ 44 :: (w ++ b.closing :: s))
        rw [hopened, hpass (fuel + n') (b :: open_) l' _ hl' hend, hcomma]
      · intro m' hm'
        rw [skipNested_comma (fuel + n' + n) open_ hm' hk,
          hpass (fuel + n') (b :: open_) l _ hl hend, hcomma]

/-- Every value is passed over, whatever follows it. -/
theorem skipValue_passes {l v s : Octets} (hl : Blanks l) (hv : WellFormed .value v)
    (hs : EndsNumber s) : skipValue (l ++ (v ++ s)) = .ok s := by
  obtain ⟨k, hk, hpass⟩ := hv.passed
  have hfuel : 2 * (l ++ (v ++ s)).length + 2 = 2 * (l ++ (v ++ s)).length + 1 - k + 1 + k := by
    simp only [List.length_append]
    omega
  rw [skipValue, hfuel, hpass _ [] l s hl hs]
  rfl

/-! ## What was passed over -/

theorem Bracket.Lead.append {b : Bracket} {l₀ k l : Octets} (hl₀ : Blanks l₀) (hk : b.Lead k)
    (hl : Blanks l) : ∃ k' l', b.Lead k' ∧ Blanks l' ∧ l₀ ++ (k ++ l) = k' ++ l' := by
  cases hk with
  | element => exact ⟨[], l₀ ++ l, .element, hl₀.append hl, rfl⟩
  | @key l₁ t m hl₁ ht hm =>
    refine ⟨_, l, .key (hl₀.append hl₁) ht hm, hl, ?_⟩
    simp only [List.append_assoc]

theorem lead_of_skipKey {b : Bracket} {s rest : Octets} (h : b.skipKey s = .ok rest) :
    ∃ k, b.Lead k ∧ s = k ++ rest := by
  cases b with
  | list =>
    obtain rfl := Except.ok.inj h
    exact ⟨[], .element, rfl⟩
  | object =>
    simp only [Bracket.skipKey, Json.skipKey] at h
    split at h
    · cases h
    · next c after hafter =>
      obtain ⟨l, hl, rfl⟩ := blanks_of_skipBlanks hafter
      split at h
      · next hquote =>
        obtain rfl := hquote
        obtain ⟨t, htext, hcolon⟩ := ok_of_bind h
        obtain ⟨w, hw, rfl⟩ := passes_of_skipText htext
        obtain ⟨m, hm, rfl⟩ := blanks_of_colon hcolon
        refine ⟨_, .key hl hw hm, ?_⟩
        simp only [List.append_assoc, List.cons_append, List.nil_append]
      · cases h

theorem eq_of_word {w s rest : Octets} (h : word w s = .ok rest) : s = w ++ rest := by
  induction w generalizing s with
  | nil =>
    obtain rfl := Except.ok.inj h
    rfl
  | cons b w ih =>
    cases s with
    | nil => cases h
    | cons c s =>
      simp only [word] at h
      split at h
      · next heq =>
        rw [ih h, heq]
        rfl
      · cases h

/-- What is found of a value at its first token: the whole of it, or a bracket that it opens. -/
def Opening.Begins (s : Octets) : Opening → Prop
  | .scalar rest => ∃ v, WellFormed .value v ∧ s = v ++ rest
  | .bracket b rest => s = b.start :: rest

theorem begins_of_opening {s : Octets} {o : Opening} (h : opening s = .ok o) :
    o.Begins (skipBlanks s) := by
  unfold opening at h
  split at h
  · cases h
  · next b after hafter =>
    rw [hafter]
    split at h
    · next hb =>
      obtain ⟨rest, hword, rfl⟩ := ok_of_map h
      exact ⟨_, .null, by rw [hb, eq_of_word hword]; rfl⟩
    split at h
    · next hb =>
      obtain ⟨rest, hword, rfl⟩ := ok_of_map h
      exact ⟨_, .yes, by rw [hb, eq_of_word hword]; rfl⟩
    split at h
    · next hb =>
      obtain ⟨rest, hword, rfl⟩ := ok_of_map h
      exact ⟨_, .no, by rw [hb, eq_of_word hword]; rfl⟩
    split at h
    · next hb =>
      obtain ⟨rest, hskip, rfl⟩ := ok_of_map h
      obtain ⟨w, hw, rfl⟩ := passes_of_skipUnsigned hskip
      exact ⟨45 :: w, .negative hw, by rw [hb]; rfl⟩
    split at h
    · obtain ⟨rest, hskip, rfl⟩ := ok_of_map h
      obtain ⟨w, hw, hs⟩ := passes_of_skipUnsigned hskip
      exact ⟨w, .unsigned hw, hs⟩
    split at h
    · next hb =>
      obtain ⟨rest, hskip, rfl⟩ := ok_of_map h
      obtain ⟨w, hw, rfl⟩ := passes_of_skipText hskip
      refine ⟨_, .text hw, ?_⟩
      rw [hb, List.cons_append, List.append_assoc]
      rfl
    split at h
    · next hb =>
      obtain rfl := Except.ok.inj h
      exact congrArg (· :: after) hb
    split at h
    · next hb =>
      obtain rfl := Except.ok.inj h
      exact congrArg (· :: after) hb
    · cases h

/-- What may stand behind an item: nothing, or a comma and more items. -/
inductive Bracket.Later (b : Bracket) : Octets → Prop where
  | nothing : b.Later []
  | items {w : Octets} (h : WellFormed (.items b) w) : b.Later (44 :: w)

theorem Bracket.Later.cons {b : Bracket} {k l v m x : Octets} (h : b.Later x) (hk : b.Lead k)
    (hl : Blanks l) (hv : WellFormed .value v) (hm : Blanks m) :
    WellFormed (.items b) (k ++ (l ++ (v ++ (m ++ x)))) := by
  cases h with
  | nothing =>
    rw [List.append_nil]
    exact .last hk hl hv hm
  | items hw => exact .more hk hl hv hm hw

/-- The reader came this far from a part: it has passed over the part and is behind it with
fewer steps left. -/
def Came (fuel : Nat) (open_ : List Bracket) (s rest : Octets) : Prop :=
  ∃ fuel' < fuel, skipNested fuel' .closed open_ s = .ok rest

theorem Came.mono {fuel fuel' : Nat} {open_ : List Bracket} {s rest : Octets}
    (h : Came fuel open_ s rest) (hle : fuel ≤ fuel') : Came fuel' open_ s rest := by
  obtain ⟨n, hn, hskip⟩ := h
  exact ⟨n, Nat.lt_of_lt_of_le hn hle, hskip⟩

/-- From the start of a value the reader comes behind the value, with so many steps, and from
behind an item it comes behind the bracket around it. -/
structure Follows (fuel : Nat) : Prop where
  value : ∀ open_ s rest, skipNested fuel .value open_ s = .ok rest → ∃ l v s', Blanks l ∧
    WellFormed .value v ∧ s = l ++ (v ++ s') ∧ Came fuel open_ s' rest
  closed : ∀ b open_ s rest, skipNested fuel .closed (b :: open_) s = .ok rest → ∃ m x s',
    Blanks m ∧ b.Later x ∧ s = m ++ (x ++ b.closing :: s') ∧ Came fuel open_ s' rest

section
variable {fuel : Nat} (ih : ∀ n < fuel, Follows n)
include ih

/-- A lead, a value and what comes up to the bracket that closes are items. -/
theorem items_of_skipNested {n : Nat} (hn : n < fuel) {b : Bracket} {open_ : List Bracket}
    {s t rest : Octets} (hkey : b.skipKey s = .ok t)
    (h : skipNested n .value (b :: open_) t = .ok rest) :
    ∃ w s', s = w ++ b.closing :: s' ∧ (∀ l, Blanks l → WellFormed (.items b) (l ++ w)) ∧
      Came n open_ s' rest := by
  obtain ⟨k, hk, rfl⟩ := lead_of_skipKey hkey
  obtain ⟨l, v, s₁, hl, hv, rfl, n', hn', hclosed⟩ := (ih n hn).value _ _ _ h
  obtain ⟨m, x, s', hm, hx, rfl, hcame⟩ := (ih n' (Nat.lt_trans hn' hn)).closed _ _ _ _ hclosed
  refine ⟨k ++ (l ++ (v ++ (m ++ x))), s', ?_, ?_, hcame.mono (Nat.le_of_lt hn')⟩
  · simp only [List.append_assoc]
  · intro l₀ hl₀
    obtain ⟨k', l', hk', hl', happend⟩ := hk.append hl₀ hl
    have hassoc : l₀ ++ (k ++ (l ++ (v ++ (m ++ x)))) = k' ++ (l' ++ (v ++ (m ++ x))) := by
      rw [← List.append_assoc k' l', ← happend]
      simp only [List.append_assoc]
    rw [hassoc]
    exact hx.cons hk' hl' hv hm

theorem value_of_skipNested_opened {n : Nat} (hn : n < fuel) {b : Bracket} {open_ : List Bracket}
    {s rest : Octets} (h : skipNested n .opened (b :: open_) s = .ok rest) :
    ∃ v s', WellFormed .value v ∧ b.start :: s = v ++ s' ∧ Came n open_ s' rest := by
  cases n with
  | zero => cases h
  | succ n =>
    simp only [skipNested] at h
    split at h
    · cases h
    · next c after hafter =>
      obtain ⟨m, hm, rfl⟩ := blanks_of_skipBlanks hafter
      split at h
      · next hc =>
        refine ⟨_, after, .empty b hm, ?_, n, Nat.lt_succ_self n, h⟩
        rw [hc, List.cons_append, List.append_assoc]
        rfl
      · simp only [reduceCtorEq, if_false] at h
        split at h
        · next t hkey =>
          obtain ⟨w, s', hw, hwell, hcame⟩ := items_of_skipNested ih (by omega) hkey h
          refine ⟨_, s', .bracket b (hwell m hm), ?_, hcame.mono (Nat.le_succ n)⟩
          rw [hw]
          simp only [List.append_assoc, List.cons_append, List.nil_append]
        · cases h

theorem value_of_skipNested {open_ : List Bracket} {s rest : Octets}
    (h : skipNested fuel .value open_ s = .ok rest) :
    ∃ l v s', Blanks l ∧ WellFormed .value v ∧ s = l ++ (v ++ s') ∧ Came fuel open_ s' rest := by
  cases fuel with
  | zero => cases h
  | succ fuel =>
    simp only [skipNested] at h
    split at h
    · cases h
    · next after hopening =>
      obtain ⟨v, hv, hafter⟩ := begins_of_opening hopening
      obtain ⟨l, hl, hs⟩ := blanks_of_skipBlanks hafter
      exact ⟨l, v, after, hl, hv, hs, fuel, Nat.lt_succ_self fuel, h⟩
    · next b after hopening =>
      obtain ⟨v, s', hv, hafter, hcame⟩ := value_of_skipNested_opened ih (Nat.lt_succ_self fuel) h
      obtain ⟨l, hl, hs⟩ := blanks_of_skipBlanks ((begins_of_opening hopening).trans hafter)
      exact ⟨l, v, s', hl, hv, hs, hcame.mono (Nat.le_succ fuel)⟩

theorem later_of_skipNested {b : Bracket} {open_ : List Bracket} {s rest : Octets}
    (h : skipNested fuel .closed (b :: open_) s = .ok rest) :
    ∃ m x s', Blanks m ∧ b.Later x ∧ s = m ++ (x ++ b.closing :: s') ∧ Came fuel open_ s' rest := by
  cases fuel with
  | zero => cases h
  | succ fuel =>
    simp only [skipNested] at h
    split at h
    · cases h
    · next c after hafter =>
      obtain ⟨m, hm, rfl⟩ := blanks_of_skipBlanks hafter
      split at h
      · next hc =>
        refine ⟨m, [], after, hm, .nothing, ?_, fuel, Nat.lt_succ_self fuel, h⟩
        rw [hc]
        rfl
      · simp only [if_true] at h
        split at h
        · next hcomma =>
          split at h
          · next t hkey =>
            obtain ⟨w, s', hw, hwell, hcame⟩ :=
              items_of_skipNested ih (Nat.lt_succ_self fuel) hkey h
            refine ⟨m, 44 :: w, s', hm, .items (hwell [] .nil), ?_, hcame.mono (Nat.le_succ fuel)⟩
            rw [hw, hcomma, List.cons_append]
          · cases h
        · cases h

end

theorem follows (fuel : Nat) : Follows fuel := by
  induction fuel using Nat.strongRecOn with
  | ind fuel ih =>
    constructor
    · exact fun open_ s rest h => value_of_skipNested ih h
    · exact fun b open_ s rest h => later_of_skipNested ih h

/-- Whatever is passed over is a value, behind blanks. -/
theorem wellFormed_of_skipValue {s rest : Octets} (h : skipValue s = .ok rest) :
    ∃ l v, Blanks l ∧ WellFormed .value v ∧ s = l ++ (v ++ rest) := by
  obtain ⟨l, v, s', hl, hv, hs, n, hn, hclosed⟩ := (follows _).value _ _ _ h
  cases n with
  | zero => cases hclosed
  | succ n =>
    obtain rfl := Except.ok.inj hclosed
    exact ⟨l, v, hl, hv, hs⟩

end MailDispatch.Json
