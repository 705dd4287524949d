import MailDispatch.Proofs.Json.Members

/-! # Documents by what they say

A document is an object of members or a list of sayings. Whatever a record accepts as an object
is the spelling of some members, and what it has in its fields is what these members mean. So it
accepts every other spelling of them as well, and takes the same from it.
-/
namespace MailDispatch.Json
open Text Octets

/-! ## The members of what was read -/

/-- An object goes on with its closing bracket or with a key. -/
theorem spelled_of_nextKey {first : Bool} {s : Octets} {next : Option Octets} :
    nextKey first s = .ok next →
      match next with
      | none => ∃ l rest, Blanks l ∧ s = l ++ 125 :: rest
      | some t => ∃ l m, Blanks l ∧ Blanks m ∧ s = l ++ (lead first ++ (m ++ 34 :: t)) := by
  intro h
  unfold nextKey at h
  split at h
  · cases h
  · next b after hafter =>
    obtain ⟨l, hl, rfl⟩ := blanks_of_skipBlanks hafter
    split at h
    · next hb =>
      obtain rfl := Except.ok.inj h
      exact ⟨l, after, hl, by rw [hb]⟩
    · split at h
      · next hfirst =>
        split at h
        · next hb =>
          obtain rfl := Except.ok.inj h
          exact ⟨l, [], hl, .nil, by rw [hb, hfirst]; rfl⟩
        · cases h
      · next hfirst =>
        split at h
        · next hb =>
          split at h
          · cases h
          · next c left hleft =>
            obtain ⟨m, hm, rfl⟩ := blanks_of_skipBlanks hleft
            split at h
            · next hc =>
              obtain rfl := Except.ok.inj h
              refine ⟨l, m, hl, hm, ?_⟩
              rw [hb, hc, Bool.eq_false_iff.mpr hfirst]
              rfl
            · split at h <;> cases h
        · cases h

theorem Shape.spelled_of_member {sh : Shape} {key : String} {slots slots' : Slots} {s rest : Octets}
    (h : sh.member key slots s = .ok (slots', rest)) : ∃ c l m v, Blanks l ∧ Blanks m ∧
      Spells c v ∧ s = l ++ 58 :: (m ++ (v ++ rest)) ∧
      ∀ f ∈ sh.fields, key = f.key → c ≠ .anything := by
  unfold Shape.member at h
  split at h
  · next hindex =>
    obtain ⟨t, hcolon, hvalue⟩ := ok_of_bind h
    obtain ⟨left, hskip, hslots⟩ := ok_of_bind hvalue
    obtain ⟨-, rfl⟩ := Prod.mk.inj (Except.ok.inj hslots)
    obtain ⟨l, hl, rfl⟩ := blanks_of_colon hcolon
    obtain ⟨m, v, hm, hv, rfl⟩ := wellFormed_of_skipValue (ok_of_within hskip)
    refine ⟨.anything, l, m, v, hl, hm, .anything hv, rfl, fun f hf heq => ?_⟩
    exact absurd heq.symm (Shape.key_ne_of_index? hindex hf)
  · split at h
    · cases h
    · obtain ⟨t, hcolon, hvalue⟩ := ok_of_bind h
      obtain ⟨⟨x, left⟩, hread, hslots⟩ := ok_of_bind hvalue
      obtain ⟨-, rfl⟩ := Prod.mk.inj (Except.ok.inj hslots)
      obtain ⟨l, hl, rfl⟩ := blanks_of_colon hcolon
      obtain ⟨m, c, v, hm, hv, htaken, rfl, -⟩ := Kind.spelled_of_read (ok_of_within hread)
      refine ⟨c, l, m, v, hl, hm, hv, rfl, fun f hf heq => ?_⟩
      exact Saying.ne_anything_of_taken htaken

theorem Shape.spelled_of_members {sh : Shape} {fuel : Nat} {first : Bool} {slots slots' : Slots}
    {s t : Octets} (h : sh.members fuel first slots s = .ok (slots', t)) :
    ∃ xs w rest, SpellsMembers first xs w ∧ sh.Plain xs ∧ s = w ++ rest := by
  induction fuel generalizing first slots s with
  | zero => cases h
  | succ fuel ih =>
    unfold Shape.members at h
    split at h
    · cases h
    · next hkey =>
      obtain ⟨l, rest, hl, rfl⟩ := spelled_of_nextKey hkey
      have hnone : sh.Plain [] := by
        rintro x ⟨⟩
      refine ⟨[], l ++ [125], rest, .closing hl, hnone, ?_⟩
      rw [List.append_assoc, List.singleton_append]
    · next after hkey =>
      obtain ⟨l, m, hl, hm, rfl⟩ := spelled_of_nextKey hkey
      obtain ⟨⟨key, left⟩, htext, hmember⟩ := ok_of_bind h
      obtain ⟨⟨between, later⟩, hvalue, hlater⟩ := ok_of_bind hmember
      obtain ⟨k, hk, rfl⟩ := spelled_of_text htext
      obtain ⟨c, l', m', v, hl', hm', hv, rfl, hplain⟩ := Shape.spelled_of_member hvalue
      obtain ⟨xs, ws, rest, hxs, hothers, rfl⟩ := ih hlater
      have hx : SpellsMember ⟨key, c⟩ (34 :: (k ++ 34 :: (l' ++ 58 :: (m' ++ v)))) :=
        .pair hk hl' hm' hv
      refine ⟨⟨key, c⟩ :: xs, _, rest, .member hl hm hx hxs, ?_, ?_⟩
      · intro x hx f hf heq
        rcases List.mem_cons.mp hx with rfl | hx
        · exact hplain f hf heq
        · exact hothers x hx f hf heq
      · simp only [List.append_assoc, List.cons_append]

/-! ## Objects -/

section
variable {xs : List Member} {fs : List Field} {slots : Slots} (hfound : SlotsFound xs fs slots)
include hfound

theorem fill_of_gives (honce : ∀ f ∈ fs, (xs.map Member.key).count f.key ≤ 1) {vs : List Scalar}
    (hvs : List.Forall₂ (Field.Gives xs) fs vs) : fill fs slots = .ok vs := by
  induction hfound generalizing vs with
  | nil =>
    cases hvs
    rfl
  | @cons f slot fs slots hslot _ ih =>
    cases hvs with
    | @cons _ v _ vs hv hvs =>
      have hlater := ih (fun g hg => honce g (List.mem_cons_of_mem f hg)) hvs
      have hvalue : slot.or f.fallback = some v := by
        rcases hv with ⟨x, hx, hkey, htaken⟩ | ⟨hnone, hfallback⟩
        · cases slot with
          | none => exact absurd hkey (hslot x hx)
          | some z =>
            obtain ⟨y, hy, hykey, hz⟩ := hslot
            obtain rfl := eq_of_count_le_one (honce f List.mem_cons_self) hx hy hkey hykey
            rcases hz with hany | hz
            · exact absurd hany (Saying.ne_anything_of_taken htaken)
            · rw [htaken] at hz
              rw [hz]
              rfl
        · cases slot with
          | none => exact hfallback
          | some z =>
            obtain ⟨y, hy, hykey, -⟩ := hslot
            exact absurd hykey (hnone y hy)
      simp only [fill, List.headD_cons, List.tail_cons, hvalue, hlater]
      rfl

theorem gives_of_fill (hplain : ∀ x ∈ xs, ∀ f ∈ fs, x.key = f.key → x.saying ≠ .anything)
    {vs : List Scalar} (h : fill fs slots = .ok vs) : List.Forall₂ (Field.Gives xs) fs vs := by
  induction hfound generalizing vs with
  | nil =>
    obtain rfl := Except.ok.inj h
    exact .nil
  | @cons f slot fs slots hslot _ ih =>
    unfold fill at h
    rw [List.headD_cons, List.tail_cons] at h
    split at h
    · next v hv =>
      obtain ⟨later, hlater, rfl⟩ := ok_of_map h
      refine .cons ?_ (ih (fun x hx g hg => hplain x hx g (List.mem_cons_of_mem f hg)) hlater)
      cases slot with
      | none => exact .inr ⟨hslot, hv⟩
      | some z =>
        obtain rfl := Option.some.inj hv
        obtain ⟨x, hx, hkey, hz⟩ := hslot
        refine .inl ⟨x, hx, hkey, hz.resolve_left ?_⟩
        exact hplain x hx f List.mem_cons_self hkey
    · cases h

end

theorem SpellsMembers.length_le {first : Bool} {xs : List Member} {w : Octets}
    (h : SpellsMembers first xs w) : xs.length < w.length := by
  induction h with
  | closing =>
    rw [List.length_append]
    exact Nat.lt_add_left _ Nat.zero_lt_one
  | member _ _ hx _ ih =>
    cases hx with
    | pair =>
      simp only [List.length_append, List.length_cons]
      omega

section
variable {sh : Shape} (hkeys : (sh.fields.map Field.key).Nodup) {xs : List Member} {w : Octets}
  (h : SpellsMembers true xs w)
include hkeys h

theorem Shape.object_spelled {vs : List Scalar} (hx : sh.Means xs vs) (rest : Octets) :
    sh.object (w ++ rest) = .ok (vs, rest) := by
  have hfuel : xs.length < (w ++ rest).length + 1 := by
    have hlength := h.length_le
    rw [List.length_append]
    omega
  obtain ⟨slots, s, hread, hfound, hpast⟩ :=
    Shape.members_spelled hkeys h (SlotsFound.empty sh.fields) hx.once hx.taken hfuel rest
  rw [List.nil_append] at hfound
  simp only [Shape.object, hread, bind, Except.bind, fill_of_gives hfound hx.once hx.values, hpast]
  rfl

theorem Shape.found_of_object {vs : List Scalar} {rest s : Octets}
    (hread : sh.object (w ++ rest) = .ok (vs, s)) :
    sh.Once xs ∧ s = rest ∧ (sh.Plain xs → sh.Means xs vs) := by
  obtain ⟨⟨slots, t⟩, hmembers, hfill⟩ := ok_of_bind hread
  have hnone : sh.Once [] := fun f _ => Nat.zero_le 1
  obtain ⟨honce, hfound, hpast⟩ :=
    Shape.found_of_members hkeys h (SlotsFound.empty sh.fields) hnone hmembers
  rw [List.nil_append] at honce hfound
  dsimp only at hfill
  split at hfill
  · next hvs =>
    obtain ⟨rfl, rfl⟩ := Prod.mk.inj (Except.ok.inj hfill)
    exact ⟨honce, hpast, fun hplain => ⟨honce, gives_of_fill hfound hplain hvs⟩⟩
  · cases hfill

end

/-! ## Lists -/

/-- What stands in a list behind its opening bracket, or behind an element, up to and with the
closing bracket. -/
inductive SpellsElements : Bool → List Saying → Octets → Prop where
  | closing {first : Bool} {l : Octets} (hl : Blanks l) : SpellsElements first [] (l ++ [93])
  | element {first : Bool} {c : Saying} {cs : List Saying} {l m v ws : Octets} (hl : Blanks l)
      (hm : Blanks m) (hv : Spells c v) (hcs : SpellsElements false cs ws) :
      SpellsElements first (c :: cs) (l ++ (lead first ++ (m ++ (v ++ ws))))

/-- Each field takes its value from the saying in its place. -/
inductive TakesAll : List Field → List Saying → List Scalar → Prop where
  | nil : TakesAll [] [] []
  | cons {f : Field} {fs : List Field} {c : Saying} {cs : List Saying} {v : Scalar}
      {vs : List Scalar} (h : f.kind.taken? c = some v) (hs : TakesAll fs cs vs) :
      TakesAll (f :: fs) (c :: cs) (v :: vs)

/-- Values that the fields can hold can be listed. -/
theorem exists_takesAll {fs : List Field} {vs : List Scalar}
    (h : List.Forall₂ (fun f v => f.kind.Holds v) fs vs) (first : Bool) :
    ∃ cs w, TakesAll fs cs vs ∧ SpellsElements first cs w := by
  induction h generalizing first with
  | nil => exact ⟨[], _, .nil, .closing .nil⟩
  | cons hv _ ih =>
    obtain ⟨cs, ws, hcs, hws⟩ := ih false
    exact ⟨_, _, .cons (Kind.taken_saying hv) hcs, .element .nil .nil (Scalar.spells_written _) hws⟩

theorem SpellsElements.endsNumber {cs : List Saying} {w : Octets}
    (h : SpellsElements false cs w) (rest : Octets) : EndsNumber (w ++ rest) := by
  cases h with
  | closing hl =>
    rw [List.append_assoc]
    exact hl.endsNumber (Bracket.list.endsNumber_closing rest)
  | element hl =>
    rw [List.append_assoc]
    exact hl.endsNumber (endsNumber_comma _)

theorem nextElement_spelled (first : Bool) {l m v : Octets} (hl : Blanks l) (hm : Blanks m)
    {c : Saying} (hv : Spells c v) (s : Octets) :
    nextElement first (l ++ (lead first ++ (m ++ (v ++ s)))) = .ok (some (v ++ s)) := by
  obtain ⟨b, w, rfl, hb, hbracket⟩ := hv.exists_cons
  have hcomma : isBlank 44 = false := rfl
  cases first with
  | true =>
    have hskip : skipBlanks (l ++ (lead true ++ (m ++ (b :: w ++ s)))) = b :: (w ++ s) := by
      rw [skipBlanks_append hl]
      exact skipBlanks_append_cons hm hb _
    simp only [nextElement, hskip, if_neg hbracket, if_true]
    rfl
  | false =>
    have hskip : skipBlanks (l ++ (lead false ++ (m ++ (b :: w ++ s)))) =
        44 :: (m ++ b :: (w ++ s)) :=
      skipBlanks_append_cons hl hcomma _
    simp only [nextElement, hskip, skipBlanks_append_cons hm hb, if_neg hbracket]
    rfl

theorem Shape.elements_spelled (sh : Shape) {fs : List Field} {cs : List Saying}
    {vs : List Scalar} (h : TakesAll fs cs vs) {i : Nat} {w : Octets}
    (hw : SpellsElements (i == 0) cs w) (rest : Octets) :
    ∃ l, Blanks l ∧ sh.elements fs i (w ++ rest) = .ok (vs, l ++ 93 :: rest) := by
  induction h generalizing i w with
  | nil =>
    cases hw with
    | @closing _ l hl => exact ⟨l, hl, by rw [List.append_assoc]; rfl⟩
  | @cons f fs c cs v vs hc _ ih =>
    cases hw with
    | @element _ _ _ l m t ws hl hm ht hcs =>
      obtain ⟨l', hl', hlater⟩ := ih (i := i + 1) hcs
      refine ⟨l', hl', ?_⟩
      have hread : f.kind.read (t ++ (ws ++ rest)) = .ok (v, ws ++ rest) :=
        Kind.read_spelled hc ht Blanks.nil (hcs.endsNumber rest)
      simp only [List.append_assoc, Shape.elements, nextElement_spelled (i == 0) hl hm ht, hread,
        within, bind, Except.bind, hlater]
      rfl

theorem Shape.list_spelled {sh : Shape} {cs : List Saying} {vs : List Scalar}
    (h : TakesAll sh.fields cs vs) {w : Octets} (hw : SpellsElements true cs w) (rest : Octets) :
    sh.list (w ++ rest) = .ok (vs, rest) := by
  obtain ⟨l, hl, hread⟩ := sh.elements_spelled h (i := 0) hw rest
  have hblank : isBlank 93 = false := rfl
  simp only [Shape.list, hread, bind, Except.bind, closeList, skipBlanks_append_cons hl hblank]
  rfl

/-! ## Documents -/

/-- An object of members, behind blanks. -/
inductive SpellsObject : List Member → Octets → Prop where
  | object {xs : List Member} {l w : Octets} (hl : Blanks l) (h : SpellsMembers true xs w) :
      SpellsObject xs (l ++ 123 :: w)

/-- A list of sayings, behind blanks. -/
inductive SpellsList : List Saying → Octets → Prop where
  | list {cs : List Saying} {l w : Octets} (hl : Blanks l) (h : SpellsElements true cs w) :
      SpellsList cs (l ++ 91 :: w)

def StartsObject (s : Octets) : Prop := (skipBlanks s).head? = some 123

theorem Shape.read_object (sh : Shape) {l : Octets} (hl : Blanks l) (s : Octets) :
    sh.read (l ++ 123 :: s) = sh.object s := by
  have hblank : isBlank 123 = false := rfl
  simp only [Shape.read, skipBlanks_append_cons hl hblank]
  rfl

theorem Shape.read_list (sh : Shape) {l : Octets} (hl : Blanks l) (s : Octets) :
    sh.read (l ++ 91 :: s) = sh.list s := by
  have hblank : isBlank 91 = false := rfl
  simp only [Shape.read, skipBlanks_append_cons hl hblank]
  rfl

section
variable {sh : Shape} (hkeys : (sh.fields.map Field.key).Nodup)
include hkeys

/-- An object is read for what its members mean, whatever follows it. -/
theorem Shape.read_spelled {xs : List Member} {w : Octets} (h : SpellsObject xs w)
    {vs : List Scalar} (hx : sh.Means xs vs) (rest : Octets) :
    sh.read (w ++ rest) = .ok (vs, rest) := by
  cases h with
  | object hl hw =>
    rw [List.append_assoc, List.cons_append, sh.read_object hl]
    exact Shape.object_spelled hkeys hw hx rest

/-- An object that is read has no key of a field twice, and what is read is what its members
mean, up to its end. -/
theorem Shape.found_of_read {xs : List Member} {w : Octets} (h : SpellsObject xs w)
    {vs : List Scalar} {rest s : Octets} (hread : sh.read (w ++ rest) = .ok (vs, s)) :
    sh.Once xs ∧ s = rest ∧ (sh.Plain xs → sh.Means xs vs) := by
  cases h with
  | object hl hw =>
    rw [List.append_assoc, List.cons_append, sh.read_object hl] at hread
    exact Shape.found_of_object hkeys hw hread

/-- Whatever is read as an object is one. -/
theorem Shape.spelled_of_read {s t : Octets} {vs : List Scalar} (hstart : StartsObject s)
    (h : sh.read s = .ok (vs, t)) : ∃ xs w, SpellsObject xs w ∧ sh.Plain xs ∧ s = w ++ t := by
  unfold StartsObject at hstart
  cases hafter : skipBlanks s with
  | nil =>
    rw [hafter] at hstart
    cases hstart
  | cons b after =>
    rw [hafter] at hstart
    obtain rfl := Option.some.inj hstart
    obtain ⟨l, hl, rfl⟩ := blanks_of_skipBlanks hafter
    rw [sh.read_object hl] at h
    obtain ⟨⟨slots, u⟩, hmembers, -⟩ := ok_of_bind h
    obtain ⟨xs, w, rest, hxs, hplain, rfl⟩ := Shape.spelled_of_members hmembers
    obtain ⟨-, rfl, -⟩ := Shape.found_of_object hkeys hxs h
    refine ⟨xs, l ++ 123 :: w, .object hl hxs, hplain, ?_⟩
    rw [List.append_assoc, List.cons_append]

end

theorem Shape.read_listed {sh : Shape} {cs : List Saying} {w : Octets} (h : SpellsList cs w)
    {vs : List Scalar} (hcs : TakesAll sh.fields cs vs) (rest : Octets) :
    sh.read (w ++ rest) = .ok (vs, rest) := by
  cases h with
  | list hl hw =>
    rw [List.append_assoc, List.cons_append, sh.read_list hl]
    exact Shape.list_spelled hcs hw rest

end MailDispatch.Json
