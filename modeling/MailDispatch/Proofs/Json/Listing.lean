import MailDispatch.Proofs.Json.Respelling

/-! # Lists that were read

A list that is read has one element for each field, in its place, unless fields at the end are left
out that have a fallback. Where the last field has none, the elements say all the values.
-/
namespace MailDispatch.Json
open Text Octets

/-- A list goes on with its closing bracket or with an element. -/
theorem spelled_of_nextElement {first : Bool} {s : Octets} {next : Option Octets} :
    nextElement first s = .ok next →
      match next with
      | none => ∃ rest, skipBlanks s = 93 :: rest
      | some t => ∃ l m, Blanks l ∧ Blanks m ∧ s = l ++ (lead first ++ (m ++ t)) := by
  intro h
  unfold nextElement at h
  split at h
  · cases h
  · next b after hafter =>
    split at h
    · next hb =>
      obtain rfl := Except.ok.inj h
      exact ⟨after, by rw [hafter, hb]⟩
    · obtain ⟨l, hl, rfl⟩ := blanks_of_skipBlanks hafter
      split at h
      · next hfirst =>
        obtain rfl := Except.ok.inj h
        exact ⟨l, [], hl, .nil, by rw [hfirst]; rfl⟩
      · next hfirst =>
        split at h
        · next hb =>
          split at h
          · cases h
          · next c left hleft =>
            obtain ⟨m, hm, rfl⟩ := blanks_of_skipBlanks hleft
            split at h
            · cases h
            · obtain rfl := Except.ok.inj h
              refine ⟨l, m, hl, hm, ?_⟩
              rw [hb, Bool.eq_false_iff.mpr hfirst]
              rfl
        · cases h

theorem nextElement_closing (first : Bool) {s rest : Octets} (h : skipBlanks s = 93 :: rest) :
    nextElement first s = .ok none := by
  simp only [nextElement, h, if_pos trivial]

theorem closing_of_closeList {s rest : Octets} (h : closeList s = .ok rest) :
    ∃ l, Blanks l ∧ s = l ++ 93 :: rest := by
  unfold closeList at h
  split at h
  · cases h
  · next b after hafter =>
    split at h
    · next hb =>
      obtain rfl := Except.ok.inj h
      obtain rfl := hb
      exact blanks_of_skipBlanks hafter
    · split at h <;> cases h

/-! ## The elements -/

/-- Fields without an element have a fallback. -/
theorem Shape.fallback_of_elements {sh : Shape} {fs : List Field} {i : Nat} {s t rest : Octets}
    {vs : List Scalar} (hs : skipBlanks s = 93 :: rest) (h : sh.elements fs i s = .ok (vs, t)) :
    ∀ f ∈ fs, f.fallback ≠ none := by
  induction fs generalizing i vs with
  | nil =>
    rintro f ⟨⟩
  | cons f fs ih =>
    simp only [Shape.elements, nextElement_closing (i == 0) hs] at h
    split at h
    · next v hv =>
      obtain ⟨⟨us, left⟩, hlater, hvalues⟩ := ok_of_map h
      obtain ⟨-, rfl⟩ := Prod.mk.inj hvalues
      intro g hg
      rcases List.mem_cons.mp hg with rfl | hg
      · rw [hv]
        exact Option.some_ne_none v
      · exact ih hlater g hg
    · cases h

theorem Shape.spelled_of_elements {sh : Shape} {fs : List Field} (hlast : ∀ f ∈ fs.getLast?,
      f.fallback = none) {i : Nat} {s t rest : Octets} {vs : List Scalar}
    (h : sh.elements fs i s = .ok (vs, t)) (hclose : closeList t = .ok rest) :
    ∃ cs w, TakesAll fs cs vs ∧ SpellsElements (i == 0) cs w ∧ s = w ++ rest := by
  induction fs generalizing i s vs with
  | nil =>
    obtain ⟨rfl, rfl⟩ := Prod.mk.inj (Except.ok.inj h)
    obtain ⟨l, hl, rfl⟩ := closing_of_closeList hclose
    exact ⟨[], l ++ [93], .nil, .closing hl, by rw [List.append_assoc, List.singleton_append]⟩
  | cons f fs ih =>
    have hlater : ∀ g ∈ fs.getLast?, g.fallback = none := by
      intro g hg
      cases fs with
      | nil => cases hg
      | cons f' fs => exact hlast g (by rw [List.getLast?_cons_cons]; exact hg)
    cases hnext : nextElement (i == 0) s with
    | error p =>
      simp only [Shape.elements, hnext] at h
      cases h
    | ok next =>
      cases next with
      | none =>
        -- The last field would have to do without an element.
        obtain ⟨after, hafter⟩ := spelled_of_nextElement hnext
        obtain ⟨g, hg⟩ : ∃ g, (f :: fs).getLast? = some g :=
          ⟨_, List.getLast?_eq_some_getLast (List.cons_ne_nil f fs)⟩
        have hmem : g ∈ f :: fs := List.mem_of_getLast? hg
        exact absurd (hlast g hg) (Shape.fallback_of_elements hafter h g hmem)
      | some u =>
        simp only [Shape.elements, hnext] at h
        obtain ⟨⟨v, left⟩, hread, hvalue⟩ := ok_of_bind h
        obtain ⟨⟨us, after⟩, helements, hvalues⟩ := ok_of_bind hvalue
        obtain ⟨rfl, rfl⟩ := Prod.mk.inj (Except.ok.inj hvalues)
        obtain ⟨cs, ws, hcs, hws, rfl⟩ := ih hlater helements
        obtain ⟨l, m, hl, hm, rfl⟩ := spelled_of_nextElement hnext
        obtain ⟨m', c, x, hm', hx, htaken, rfl, -⟩ := Kind.spelled_of_read (ok_of_within hread)
        refine ⟨c :: cs, _, .cons htaken hcs, .element hl (hm.append hm') hx hws, ?_⟩
        simp only [List.append_assoc]

/-- Elements that are read are taken by their fields. -/
theorem Shape.takesAll_of_elements {sh : Shape} {cs : List Saying} (hplain : ∀ c ∈ cs, c ≠ .anything)
    {fs : List Field} (hlength : cs.length = fs.length) {i : Nat} {w : Octets}
    (hw : SpellsElements (i == 0) cs w) {rest t : Octets} {vs : List Scalar}
    (h : sh.elements fs i (w ++ rest) = .ok (vs, t)) : TakesAll fs cs vs := by
  induction fs generalizing cs i w vs with
  | nil =>
    obtain rfl := List.length_eq_zero_iff.mp hlength
    obtain ⟨rfl, -⟩ := Prod.mk.inj (Except.ok.inj h)
    exact .nil
  | cons f fs ih =>
    cases hw with
    | closing => cases hlength
    | @element _ c cs l m v ws hl hm hv hcs =>
      simp only [List.append_assoc, Shape.elements, nextElement_spelled (i == 0) hl hm hv] at h
      obtain ⟨⟨x, left⟩, hread, hvalue⟩ := ok_of_bind h
      obtain ⟨⟨us, after⟩, helements, hvalues⟩ := ok_of_bind hvalue
      obtain ⟨rfl, rfl⟩ := Prod.mk.inj (Except.ok.inj hvalues)
      obtain ⟨rfl, htaken⟩ :=
        Kind.taken_of_read hv (l := []) .nil (hcs.endsNumber rest) (ok_of_within hread)
      have hc : c ≠ .anything := hplain c List.mem_cons_self
      have hothers : ∀ c ∈ cs, c ≠ .anything := fun c hc => hplain c (List.mem_cons_of_mem _ hc)
      have hlater := ih hothers (Nat.succ.inj hlength) (i := i + 1) hcs helements
      exact .cons (htaken.resolve_left hc) hlater

/-- An element can be replaced by one that its field takes for the same. -/
theorem TakesAll.replace {fs : List Field} {cs ds : List Saying} {c c' : Saying}
    {vs : List Scalar} (h : TakesAll fs (cs ++ c :: ds) vs)
    (hsame : ∀ f, fs[cs.length]? = some f → f.kind.taken? c' = f.kind.taken? c) :
    TakesAll fs (cs ++ c' :: ds) vs := by
  induction cs generalizing fs vs with
  | nil =>
    cases h with
    | @cons f fs _ _ _ _ hc hds => exact .cons (by rw [hsame f rfl, hc]) hds
  | cons b cs ih =>
    cases h with
    | cons hb hcs => exact .cons hb (ih hcs hsame)

/-! ## Documents -/

/-- Whatever is read is an object of members or a list with an element for each field. -/
theorem Shape.document_of_read {sh : Shape} (hkeys : (sh.fields.map Field.key).Nodup)
    (hlast : ∀ f ∈ sh.fields.getLast?, f.fallback = none) {s rest : Octets} {vs : List Scalar}
    (h : sh.read s = .ok (vs, rest)) :
    (∃ xs w, SpellsObject xs w ∧ sh.Plain xs ∧ s = w ++ rest) ∨
      ∃ cs w, SpellsList cs w ∧ TakesAll sh.fields cs vs ∧ s = w ++ rest := by
  cases hafter : skipBlanks s with
  | nil =>
    simp only [Shape.read, hafter] at h
    cases h
  | cons b after =>
    by_cases hobject : b = 123
    · have hstart : StartsObject s := by
        rw [StartsObject, hafter, hobject]
        rfl
      exact .inl (Shape.spelled_of_read hkeys hstart h)
    · simp only [Shape.read, hafter, if_neg hobject] at h
      split at h
      · next hb =>
        obtain ⟨⟨us, t⟩, helements, hvalue⟩ := ok_of_bind h
        obtain ⟨left, hclose, hvalues⟩ := ok_of_bind hvalue
        obtain ⟨rfl, rfl⟩ := Prod.mk.inj (Except.ok.inj hvalues)
        obtain ⟨cs, w, hcs, hw, rfl⟩ := Shape.spelled_of_elements hlast helements hclose
        obtain ⟨l, hl, rfl⟩ := blanks_of_skipBlanks hafter
        refine .inr ⟨cs, l ++ 91 :: w, .list hl hw, hcs, ?_⟩
        rw [hb, List.append_assoc, List.cons_append]
      · cases h

/-- A list that is read has the values that the fields take from its elements. -/
theorem Shape.takesAll_of_read {sh : Shape} {cs : List Saying} {w : Octets} (hw : SpellsList cs w)
    (hplain : ∀ c ∈ cs, c ≠ .anything) (hlength : cs.length = sh.fields.length)
    {rest t : Octets} {vs : List Scalar} (h : sh.read (w ++ rest) = .ok (vs, t)) :
    TakesAll sh.fields cs vs := by
  cases hw with
  | list hl hw =>
    rw [List.append_assoc, List.cons_append, sh.read_list hl] at h
    obtain ⟨⟨us, left⟩, helements, hvalue⟩ := ok_of_bind h
    obtain ⟨after, -, hvalues⟩ := ok_of_bind hvalue
    obtain ⟨rfl, -⟩ := Prod.mk.inj (Except.ok.inj hvalues)
    exact Shape.takesAll_of_elements hplain hlength (i := 0) hw helements

end MailDispatch.Json
