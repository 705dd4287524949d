import MailDispatch.Proofs.Settings.Items

/-! # Documents laid over a tree

A document of the usual form is a table of parts, and a part is a table of scalars. Laid over
a tree, it decides the fields that it has and leaves the others as they are.
-/
namespace MailDispatch.Settings

/-! ## Members -/

theorem lookup_cons_eq {α : Type} {key k : String} {v : α} {ms : List (String × α)} :
    ((k, v) :: ms).lookup key = if key = k then some v else ms.lookup key := by
  by_cases h : key = k
  · rw [List.lookup_cons, beq_iff_eq.mpr h, if_pos h]
  · rw [List.lookup_cons, beq_eq_false_iff_ne.mpr h, if_neg h]

theorem lookup_eq_none_of_not_mem {α : Type} {key : String} {ms : List (String × α)}
    (h : key ∉ ms.map Prod.fst) : ms.lookup key = none := by
  rw [List.lookup_eq_none_iff]
  intro m hm
  have hne : key ≠ m.1 := by
    rintro rfl
    exact h (List.mem_map_of_mem hm)
  simp [hne]

namespace Tree

theorem lookup_setMember {key k : String} {v : Tree} {ms : List (String × Tree)} :
    (setMember key v ms).lookup k = if k = key then some v else ms.lookup k := by
  induction ms with
  | nil => rw [setMember, lookup_cons_eq]
  | cons m ms ih =>
    obtain ⟨k', v'⟩ := m
    unfold setMember
    by_cases hkey : k' = key
    · subst hkey
      rw [if_pos rfl, lookup_cons_eq, lookup_cons_eq]
      by_cases hk : k = k'
      · rw [if_pos hk, if_pos hk]
      · simp only [if_neg hk]
    · rw [if_neg hkey, lookup_cons_eq, lookup_cons_eq, ih]
      by_cases hk : k = k'
      · subst hk
        rw [if_pos rfl, if_neg hkey, if_pos rfl]
      · simp only [if_neg hk]

/-! ## Values put into a table -/

/-- Numbers, texts and truth values. -/
def isScalar : Tree → Bool
  | truth _ | whole _ | fraction _ | text _ => true
  | absent | list _ | table _ => false

theorem put_of_isScalar {root v : Tree} {key : String} (h : v.isScalar = true) :
    root.put key v = table (setMember key v root.members) := by
  cases v with
  | truth b => simp only [put]
  | whole n => simp only [put]
  | fraction x => simp only [put]
  | text s => simp only [put]
  | absent => cases h
  | list ts => cases h
  | table ms => cases h

theorem put_table {root : Tree} {key : String} {fs : List (String × Tree)} :
    root.put key (table fs) =
      table (setMember key (putAll ((root.members.lookup key).getD (table [])) fs)
        root.members) := by
  simp only [put]

theorem exists_put_eq (root v : Tree) (key : String) :
    ∃ w, root.put key v = table (setMember key w root.members) := by
  cases v with
  | table fs => exact ⟨_, put_table⟩
  | absent => exact ⟨absent, by simp only [put]⟩
  | truth b => exact ⟨truth b, put_of_isScalar rfl⟩
  | whole n => exact ⟨whole n, put_of_isScalar rfl⟩
  | fraction x => exact ⟨fraction x, put_of_isScalar rfl⟩
  | text s => exact ⟨text s, put_of_isScalar rfl⟩
  | list ts => exact ⟨list ts, by simp only [put]⟩

theorem putAll_of_table (fs ms : List (String × Tree)) :
    ∃ ms', putAll (table ms) fs = table ms' := by
  induction fs generalizing ms with
  | nil => exact ⟨ms, by simp only [putAll]⟩
  | cons f fs ih =>
    obtain ⟨w, hw⟩ := exists_put_eq (table ms) f.2 f.1
    simp only [putAll, hw]
    exact ih _

/-- Of scalars under different keys every one gets its place, and the other keys keep theirs. -/
theorem lookup_putAll {fs : List (String × Tree)} (hkeys : (fs.map Prod.fst).Nodup)
    (hscalar : ∀ f ∈ fs, f.2.isScalar = true) (root : Tree) (key : String) :
    (putAll root fs).members.lookup key = (fs.lookup key).or (root.members.lookup key) := by
  induction fs generalizing root with
  | nil => simp only [putAll, List.lookup_nil, Option.none_or]
  | cons f fs ih =>
    obtain ⟨k, v⟩ := f
    rw [List.map_cons, List.nodup_cons] at hkeys
    have hv : v.isScalar = true := hscalar (k, v) List.mem_cons_self
    have hrest : ∀ f ∈ fs, f.2.isScalar = true := fun f hf => hscalar f (List.mem_cons_of_mem _ hf)
    rw [putAll, ih hkeys.2 hrest, put_of_isScalar hv, members, lookup_setMember, lookup_cons_eq]
    by_cases hk : key = k
    · subst hk
      rw [lookup_eq_none_of_not_mem hkeys.1, if_pos rfl, if_pos rfl]
      rfl
    · rw [if_neg hk, if_neg hk]

/-! ## Fields of parts -/

/-- The value of a field of a part, both by name. -/
def at? (t : Tree) (part field : String) : Option Tree :=
  ((t.members.lookup part).getD (table [])).members.lookup field

/-- Every part is there as a table. -/
def HasParts (t : Tree) : Prop :=
  ∃ ms, t = table ms ∧ ∀ p : Part, ∃ fs, ms.lookup p.name = some (table fs)

theorem at?_put_table {root : Tree} {part field : String} {fs : List (String × Tree)}
    (hkeys : (fs.map Prod.fst).Nodup) (hscalar : ∀ f ∈ fs, f.2.isScalar = true) :
    (root.put part (table fs)).at? part field = (fs.lookup field).or (root.at? part field) := by
  rw [put_table, at?, members, lookup_setMember, if_pos rfl, Option.getD_some,
    lookup_putAll hkeys hscalar, at?]

theorem at?_put_of_ne {root v : Tree} {key part field : String} (h : part ≠ key) :
    (root.put key v).at? part field = root.at? part field := by
  obtain ⟨w, hw⟩ := exists_put_eq root v key
  rw [hw, at?, members, lookup_setMember, if_neg h, at?]

theorem HasParts.put {root v : Tree} {key : String} (h : root.HasParts)
    (hv : ∀ p : Part, p.name = key → ∃ fs, v = table fs) : (root.put key v).HasParts := by
  obtain ⟨ms, rfl, hparts⟩ := h
  obtain ⟨w, hw⟩ := exists_put_eq (table ms) v key
  refine ⟨_, hw, ?_⟩
  intro p
  obtain ⟨gs, hgs⟩ := hparts p
  by_cases hkey : p.name = key
  · obtain ⟨fs, rfl⟩ := hv p hkey
    subst hkey
    rw [← (table.inj (put_table.symm.trans hw)), lookup_setMember, if_pos rfl, members, hgs,
      Option.getD_some]
    obtain ⟨gs', hgs'⟩ := putAll_of_table fs gs
    exact ⟨gs', by rw [hgs']⟩
  · rw [members, lookup_setMember, if_neg hkey]
    exact ⟨gs, hgs⟩

end Tree

/-! ## Keys without paths -/

theorem steps?_eq_none {fuel : Nat} {c : Char} {cs : List Char} (hpoint : c ≠ '.')
    (hbracket : c ≠ '[') : Path.steps? fuel (c :: cs) = none := by
  unfold Path.steps?
  split
  · simp_all
  · rfl
  · simp_all
  · simp_all
  · rfl

/-- A key without points and brackets is just a name. -/
theorem Path.ofKey_plain {key : String} (hpoint : '.' ∉ key.toList)
    (hbracket : '[' ∉ key.toList) : Path.ofKey key = ⟨key, []⟩ := by
  unfold Path.ofKey
  split
  · next n rest hname =>
    unfold Path.name? at hname
    have hsplit := List.takeWhile_append_dropWhile (p := Path.isNameChar) (l := key.toList)
    split at hname
    · cases hname
    · next cs hcs =>
      obtain ⟨rfl, rfl⟩ := Prod.mk.inj (Option.some.inj hname)
      cases hrest : key.toList.dropWhile Path.isNameChar with
      | nil =>
        rw [hrest, List.append_nil] at hsplit
        simp only [List.length_nil, Path.steps?, hsplit, String.ofList_toList]
      | cons c cs =>
        have hmem : c ∈ key.toList := by
          rw [← hsplit, hrest]
          simp
        rw [steps?_eq_none (by rintro rfl; exact hpoint hmem)
          (by rintro rfl; exact hbracket hmem)]
  · rfl

/-! ## Documents -/

/-- A table of scalars under different keys. -/
def Tree.Flat : Tree → Prop
  | table fs => (fs.map Prod.fst).Nodup ∧ ∀ f ∈ fs, f.2.isScalar = true
  | _ => False

/-- A key that is no path. The key of a part has scalars under different keys. -/
def OrdinaryMember (key : String) (value : Tree) : Prop :=
  '.' ∉ key.toList ∧ '[' ∉ key.toList ∧ ∀ p : Part, p.name = key → value.Flat

/-- A document of ordinary members under different keys. -/
def Tree.Ordinary : Tree → Prop
  | table ms => (ms.map Prod.fst).Nodup ∧ ∀ m ∈ ms, OrdinaryMember m.1 m.2
  | _ => False

instance : DecidablePred Tree.Flat
  | .table _ => inferInstanceAs (Decidable (_ ∧ _))
  | .absent | .truth _ | .whole _ | .fraction _ | .text _ | .list _ =>
    inferInstanceAs (Decidable False)

instance (key : String) (value : Tree) : Decidable (OrdinaryMember key value) :=
  inferInstanceAs (Decidable (_ ∧ _ ∧ _))

instance : DecidablePred Tree.Ordinary
  | .table _ => inferInstanceAs (Decidable (_ ∧ _))
  | .absent | .truth _ | .whole _ | .fraction _ | .text _ | .list _ =>
    inferInstanceAs (Decidable False)

theorem Tree.Flat.exists_fields {t : Tree} (h : t.Flat) :
    ∃ fs, t = .table fs ∧ (fs.map Prod.fst).Nodup ∧ ∀ f ∈ fs, f.2.isScalar = true := by
  cases t with
  | table fs => exact ⟨fs, rfl, h⟩
  | _ => exact h.elim

theorem Tree.Ordinary.exists_members {d : Tree} (h : d.Ordinary) :
    ∃ ms, d = .table ms ∧ (ms.map Prod.fst).Nodup ∧ ∀ m ∈ ms, OrdinaryMember m.1 m.2 := by
  cases d with
  | table ms => exact ⟨ms, rfl, h⟩
  | _ => exact h.elim

theorem OrdinaryMember.at?_put {k : String} {v : Tree} (h : OrdinaryMember k v) (root : Tree)
    (p : Part) (field : String) :
    ((Path.ofKey k).put v root).at? p.name field =
      if p.name = k then (v.members.lookup field).or (root.at? p.name field)
      else root.at? p.name field := by
  obtain ⟨hpoint, hbracket, hvalue⟩ := h
  rw [Path.ofKey_plain hpoint hbracket]
  by_cases hkey : p.name = k
  · obtain ⟨fs, rfl, hkeys, hscalar⟩ := (hvalue p hkey).exists_fields
    subst hkey
    rw [if_pos rfl]
    exact Tree.at?_put_table hkeys hscalar
  · rw [if_neg hkey]
    exact Tree.at?_put_of_ne hkey

theorem OrdinaryMember.hasParts_put {k : String} {v root : Tree} (h : OrdinaryMember k v)
    (hroot : root.HasParts) : ((Path.ofKey k).put v root).HasParts := by
  obtain ⟨hpoint, hbracket, hvalue⟩ := h
  rw [Path.ofKey_plain hpoint hbracket]
  apply hroot.put
  intro p hp
  obtain ⟨fs, hfs, -⟩ := (hvalue p hp).exists_fields
  exact ⟨fs, hfs⟩

theorem at?_cons {k part field : String} {v : Tree} {ms : List (String × Tree)} :
    (Tree.table ((k, v) :: ms)).at? part field =
      if part = k then v.members.lookup field else (Tree.table ms).at? part field := by
  rw [Tree.at?, Tree.members, lookup_cons_eq]
  by_cases hpart : part = k
  · rw [if_pos hpart, if_pos hpart, Option.getD_some]
  · rw [if_neg hpart, if_neg hpart]
    rfl

theorem at?_of_not_mem {part field : String} {ms : List (String × Tree)}
    (h : part ∉ ms.map Prod.fst) : (Tree.table ms).at? part field = none := by
  rw [Tree.at?, Tree.members, lookup_eq_none_of_not_mem h]
  rfl

theorem overlay_cons {root : Tree} {m : String × Tree} {ms : List (String × Tree)} :
    overlay root (.table (m :: ms)) = overlay ((Path.ofKey m.1).put m.2 root) (.table ms) :=
  rfl

/-- An ordinary document decides the fields that it has and no others. -/
theorem at?_overlay {d : Tree} (h : d.Ordinary) (root : Tree) (p : Part) (field : String) :
    (overlay root d).at? p.name field = (d.at? p.name field).or (root.at? p.name field) := by
  obtain ⟨ms, rfl, hkeys, hmembers⟩ := h.exists_members
  clear h
  induction ms generalizing root with
  | nil => rfl
  | cons m ms ih =>
    obtain ⟨k, v⟩ := m
    rw [List.map_cons, List.nodup_cons] at hkeys
    have hhead : OrdinaryMember k v := hmembers (k, v) List.mem_cons_self
    rw [overlay_cons, ih _ hkeys.2 (fun m hm => hmembers m (List.mem_cons_of_mem _ hm)),
      hhead.at?_put, at?_cons]
    by_cases hpart : p.name = k
    · subst hpart
      rw [at?_of_not_mem hkeys.1, if_pos rfl, if_pos rfl, Option.none_or]
    · rw [if_neg hpart, if_neg hpart]

theorem Tree.HasParts.overlay {d root : Tree} (hroot : root.HasParts) (h : d.Ordinary) :
    (overlay root d).HasParts := by
  obtain ⟨ms, rfl, -, hmembers⟩ := h.exists_members
  clear h
  induction ms generalizing root with
  | nil => exact hroot
  | cons m ms ih =>
    rw [overlay_cons]
    apply ih
    · exact (hmembers m List.mem_cons_self).hasParts_put hroot
    · exact fun m hm => hmembers m (List.mem_cons_of_mem _ hm)

end MailDispatch.Settings
