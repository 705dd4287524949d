import MailDispatch.Proofs.Json.Sayings

/-! # Objects by their members

An object is a row of members, each a key and what its value says. The spelling of the keys and
of the values, the blanks, the members with other keys and the order of all of them may differ
from one text to another; what a record has in its fields depends on the members with the keys
of its fields alone. An object that has such a key twice is refused.
-/
namespace MailDispatch.Json
open Text Octets

/-- A member by its key and by what its value says. -/
structure Member where
  key : String
  saying : Saying

inductive SpellsMember : Member → Octets → Prop where
  | pair {x : Member} {k l m v : Octets} (hk : SpellsText x.key.toList k) (hl : Blanks l)
      (hm : Blanks m) (hv : Spells x.saying v) :
      SpellsMember x (34 :: (k ++ 34 :: (l ++ 58 :: (m ++ v))))

/-- The octet that goes before a member, unless it is the first one. -/
def lead (first : Bool) : Octets := if first then [] else [44]

/-- What stands in an object behind its opening bracket, or behind a member, up to and with the
closing bracket. -/
inductive SpellsMembers : Bool → List Member → Octets → Prop where
  | closing {first : Bool} {l : Octets} (hl : Blanks l) : SpellsMembers first [] (l ++ [125])
  | member {first : Bool} {x : Member} {xs : List Member} {l m w ws : Octets} (hl : Blanks l)
      (hm : Blanks m) (hx : SpellsMember x w) (hxs : SpellsMembers false xs ws) :
      SpellsMembers first (x :: xs) (l ++ (lead first ++ (m ++ (w ++ ws))))

/-! ## What members mean -/

/-- No key of a field occurs twice. -/
def Shape.Once (sh : Shape) (xs : List Member) : Prop :=
  ∀ f ∈ sh.fields, (xs.map Member.key).count f.key ≤ 1

/-- The value of a field, from the member with its key or, where there is none, its fallback. -/
def Field.Gives (xs : List Member) (f : Field) (v : Scalar) : Prop :=
  (∃ x ∈ xs, x.key = f.key ∧ f.kind.taken? x.saying = some v) ∨
    (∀ x ∈ xs, x.key ≠ f.key) ∧ f.fallback = some v

structure Shape.Means (sh : Shape) (xs : List Member) (vs : List Scalar) : Prop where
  once : sh.Once xs
  values : List.Forall₂ (Field.Gives xs) sh.fields vs

/-- What the members with the keys of fields say is a whole number or a text. -/
def Shape.Plain (sh : Shape) (xs : List Member) : Prop :=
  ∀ x ∈ xs, ∀ f ∈ sh.fields, x.key = f.key → x.saying ≠ .anything

def Shape.asks (sh : Shape) (x : Member) : Bool := (sh.fields.map Field.key).contains x.key

theorem Shape.asks_iff {sh : Shape} {x : Member} :
    sh.asks x = true ↔ ∃ f ∈ sh.fields, x.key = f.key := by
  rw [Shape.asks, List.contains_iff_mem, List.mem_map]
  exact exists_congr fun f => and_congr_right fun _ => eq_comm

section
variable {sh : Shape} {xs ys : List Member} (h : (xs.filter sh.asks).Perm (ys.filter sh.asks))
include h

/-- The members with the keys of fields are the same ones, in any order. -/
theorem mem_iff_of_perm {f : Field} (hf : f ∈ sh.fields) {x : Member} (hx : x.key = f.key) :
    x ∈ xs ↔ x ∈ ys := by
  have hasks : sh.asks x = true := Shape.asks_iff.mpr ⟨f, hf, hx⟩
  have hmem := h.mem_iff (a := x)
  simpa only [List.mem_filter, hasks, and_true] using hmem

theorem count_eq_of_perm {f : Field} (hf : f ∈ sh.fields) :
    (xs.map Member.key).count f.key = (ys.map Member.key).count f.key := by
  have hfilter : ∀ zs : List Member, ((zs.filter sh.asks).map Member.key).count f.key =
      (zs.map Member.key).count f.key := by
    intro zs
    induction zs with
    | nil => rfl
    | cons z zs ih =>
      rw [List.filter_cons]
      split
      · rw [List.map_cons, List.map_cons, List.count_cons, List.count_cons, ih]
      · next hz =>
        have hne : z.key ≠ f.key := fun heq => hz (Shape.asks_iff.mpr ⟨f, hf, heq⟩)
        rw [List.map_cons, List.count_cons_of_ne hne, ih]
  rw [← hfilter xs, ← hfilter ys]
  exact (h.map Member.key).count_eq f.key

/-- The meaning of members does not depend on their order, nor on those with other keys. -/
theorem Shape.Means.of_perm {vs : List Scalar} (hx : sh.Means xs vs) : sh.Means ys vs := by
  constructor
  · intro f hf
    rw [← count_eq_of_perm h hf]
    exact hx.once f hf
  · have hgives : ∀ f ∈ sh.fields, ∀ v, f.Gives xs v → f.Gives ys v := by
      rintro f hf v (⟨x, hmem, hkey, htaken⟩ | ⟨hnone, hfallback⟩)
      · exact .inl ⟨x, (mem_iff_of_perm h hf hkey).mp hmem, hkey, htaken⟩
      · refine .inr ⟨fun y hy hkey => ?_, hfallback⟩
        exact hnone y ((mem_iff_of_perm h hf hkey).mpr hy) hkey
    have hall : ∀ (fs : List Field) (vs : List Scalar), (∀ f ∈ fs, f ∈ sh.fields) →
        List.Forall₂ (Field.Gives xs) fs vs → List.Forall₂ (Field.Gives ys) fs vs := by
      intro fs vs hsub hfs
      induction hfs with
      | nil => exact .nil
      | @cons f v fs vs hf _ ih =>
        refine .cons (hgives f (hsub f List.mem_cons_self) v hf) (ih fun g hg => ?_)
        exact hsub g (List.mem_cons_of_mem f hg)
    exact hall sh.fields vs (fun f hf => hf) hx.values

end

/-- A member can be replaced by one that its field takes for the same. -/
theorem Shape.Means.replace {sh : Shape} {xs ys : List Member} {x x' : Member} {vs : List Scalar}
    (h : sh.Means (xs ++ x :: ys) vs) (hkey : x'.key = x.key)
    (hsame : ∀ f ∈ sh.fields, x.key = f.key → f.kind.taken? x'.saying = f.kind.taken? x.saying) :
    sh.Means (xs ++ x' :: ys) vs := by
  have hkeys : (xs ++ x' :: ys).map Member.key = (xs ++ x :: ys).map Member.key := by
    simp only [List.map_append, List.map_cons, hkey]
  have hgives : ∀ f ∈ sh.fields, ∀ v, f.Gives (xs ++ x :: ys) v → f.Gives (xs ++ x' :: ys) v := by
    rintro f hf v (⟨y, hy, hykey, htaken⟩ | ⟨hnone, hfallback⟩)
    · left
      rcases List.mem_append.mp hy with hy | hy
      · exact ⟨y, List.mem_append_left _ hy, hykey, htaken⟩
      · rcases List.mem_cons.mp hy with rfl | hy
        · exact ⟨x', by simp, hkey.trans hykey, by rw [hsame f hf hykey, htaken]⟩
        · exact ⟨y, by simp [hy], hykey, htaken⟩
    · refine .inr ⟨fun y hy hykey => ?_, hfallback⟩
      have hmem : f.key ∈ (xs ++ x :: ys).map Member.key := by
        rw [← hkeys, ← hykey]
        exact List.mem_map_of_mem hy
      obtain ⟨z, hz, hzkey⟩ := List.mem_map.mp hmem
      exact hnone z hz hzkey
  constructor
  · intro f hf
    rw [hkeys]
    exact h.once f hf
  · refine List.forall₂_iff_get.mpr ⟨h.values.length_eq, fun i hi hi' => ?_⟩
    exact hgives _ (List.get_mem _ _) _ ((List.forall₂_iff_get.mp h.values).2 i hi hi')

theorem eq_of_count_le_one {xs : List Member} {key : String}
    (h : (xs.map Member.key).count key ≤ 1) {x y : Member} (hx : x ∈ xs) (hy : y ∈ xs)
    (hxkey : x.key = key) (hykey : y.key = key) : x = y := by
  induction xs with
  | nil => cases hx
  | cons z zs ih =>
    have hpos : ∀ w ∈ zs, w.key = key → 0 < (zs.map Member.key).count key := by
      rintro w hw rfl
      exact List.count_pos_iff.mpr (List.mem_map_of_mem hw)
    rw [List.map_cons, List.count_cons] at h
    cases hx with
    | head =>
      cases hy with
      | head => rfl
      | tail _ hy =>
        have hlater := hpos y hy hykey
        rw [if_pos (by simp [hxkey])] at h
        omega
    | tail _ hx =>
      cases hy with
      | head =>
        have hlater := hpos x hx hxkey
        rw [if_pos (by simp [hykey])] at h
        omega
      | tail _ hy => exact ih (by omega) hx hy

/-- Members with a meaning say what their fields take. -/
theorem Shape.Means.taken {sh : Shape} {xs : List Member} {vs : List Scalar}
    (h : sh.Means xs vs) : ∀ x ∈ xs, ∀ f ∈ sh.fields, x.key = f.key →
      ∃ v, f.kind.taken? x.saying = some v := by
  intro x hx f hf hkey
  obtain ⟨i, hi, rfl⟩ := List.mem_iff_getElem.mp hf
  have hvalue := (List.forall₂_iff_get.mp h.values).2 i hi (by rw [← h.values.length_eq]; exact hi)
  rcases hvalue with ⟨y, hy, hykey, htaken⟩ | ⟨hnone, -⟩
  · obtain rfl := eq_of_count_le_one (h.once _ hf) hx hy hkey hykey
    exact ⟨_, htaken⟩
  · exact absurd hkey (hnone x hx)

/-! ## Slots -/

/-- What the slot of a field has when the members that were read are these. -/
def Field.Found (xs : List Member) (f : Field) : Option Scalar → Prop
  | none => ∀ x ∈ xs, x.key ≠ f.key
  | some v => ∃ x ∈ xs, x.key = f.key ∧ (x.saying = .anything ∨ f.kind.taken? x.saying = some v)

theorem Field.Found.append {xs : List Member} {f : Field} {slot : Option Scalar}
    (h : f.Found xs slot) {x : Member} (hx : x.key ≠ f.key) : f.Found (xs ++ [x]) slot := by
  cases slot with
  | none =>
    intro y hy
    rcases List.mem_append.mp hy with hy | hy
    · exact h y hy
    · rw [List.mem_singleton.mp hy]
      exact hx
  | some v =>
    obtain ⟨y, hy, hkey, htaken⟩ := h
    exact ⟨y, List.mem_append_left _ hy, hkey, htaken⟩

/-- The slots have what was found for their fields. -/
abbrev SlotsFound (xs : List Member) (fs : List Field) (slots : Slots) : Prop :=
  List.Forall₂ (Field.Found xs) fs slots

theorem SlotsFound.empty (fs : List Field) : SlotsFound [] fs (fs.map fun _ => none) := by
  induction fs with
  | nil => exact .nil
  | cons f fs ih => exact .cons (fun x hx => by cases hx) ih

section
variable {xs : List Member} {fs : List Field} {slots : Slots} (h : SlotsFound xs fs slots)
include h

theorem SlotsFound.append {x : Member} (hx : ∀ f ∈ fs, x.key ≠ f.key) :
    SlotsFound (xs ++ [x]) fs slots := by
  induction h with
  | nil => exact .nil
  | @cons f slot fs slots hf _ ih =>
    refine .cons (hf.append (hx f List.mem_cons_self)) (ih fun g hg => ?_)
    exact hx g (List.mem_cons_of_mem f hg)

theorem SlotsFound.slot {i : Nat} {f : Field} (hf : fs[i]? = some f) :
    f.Found xs slots[i]?.join := by
  induction h generalizing i with
  | nil => cases hf
  | @cons g slot fs slots hg _ ih =>
    cases i with
    | zero =>
      obtain rfl := Option.some.inj hf
      exact hg
    | succ i => exact ih hf

theorem SlotsFound.set (hkeys : (fs.map Field.key).Nodup) {i : Nat} {f : Field} {x : Member}
    (hf : fs[i]? = some f) (hx : x.key = f.key) {v : Scalar}
    (hv : x.saying = .anything ∨ f.kind.taken? x.saying = some v) :
    SlotsFound (xs ++ [x]) fs (slots.set i (some v)) := by
  induction h generalizing i with
  | nil => cases hf
  | @cons g slot fs slots hg hrest ih =>
    rw [List.map_cons, List.nodup_cons] at hkeys
    cases i with
    | zero =>
      obtain rfl := Option.some.inj hf
      have hother : ∀ f ∈ fs, x.key ≠ f.key := fun f hf heq =>
        hkeys.1 (List.mem_map.mpr ⟨f, hf, by rw [← heq, hx]⟩)
      exact .cons ⟨x, by simp, hx, hv⟩ (SlotsFound.append hrest hother)
    | succ i =>
      have hmem : f ∈ fs := List.mem_of_getElem? hf
      have hother : x.key ≠ g.key := fun heq =>
        hkeys.1 (List.mem_map.mpr ⟨f, hmem, by rw [← hx, heq]⟩)
      exact .cons (hg.append hother) (ih hkeys.2 hf)

end

/-! ## One member -/

theorem nextKey_spelled (first : Bool) {l m : Octets} (hl : Blanks l) (hm : Blanks m)
    (s : Octets) : nextKey first (l ++ (lead first ++ (m ++ 34 :: s))) = .ok (some s) := by
  have hquote : isBlank 34 = false := rfl
  have hcomma : isBlank 44 = false := rfl
  cases first with
  | true =>
    have hskip : skipBlanks (l ++ (lead true ++ (m ++ 34 :: s))) = 34 :: s := by
      rw [skipBlanks_append hl]
      exact skipBlanks_append_cons hm hquote s
    simp only [nextKey, hskip]
    rfl
  | false =>
    have hskip : skipBlanks (l ++ (lead false ++ (m ++ 34 :: s))) = 44 :: (m ++ 34 :: s) :=
      skipBlanks_append_cons hl hcomma _
    simp only [nextKey, hskip, skipBlanks_append_cons hm hquote]
    rfl

theorem endsNumber_bracket (rest : Octets) : EndsNumber (125 :: rest) := by
  rintro b ⟨⟩
  decide

theorem SpellsMembers.endsNumber {xs : List Member} {w : Octets} (h : SpellsMembers false xs w)
    (rest : Octets) : EndsNumber (w ++ rest) := by
  cases h with
  | closing hl =>
    rw [List.append_assoc]
    exact hl.endsNumber (endsNumber_bracket rest)
  | member hl =>
    rw [List.append_assoc]
    exact hl.endsNumber (endsNumber_comma _)

theorem Shape.index?_eq_some {sh : Shape} {key : String} {i : Nat} (h : sh.index? key = some i) :
    ∃ f, sh.fields[i]? = some f ∧ f ∈ sh.fields ∧ f.key = key := by
  obtain ⟨hi, hkey, -⟩ := List.findIdx?_eq_some_iff_getElem.mp h
  exact ⟨sh.fields[i], List.getElem?_eq_getElem hi, List.getElem_mem hi, by simpa using hkey⟩

theorem Shape.key_ne_of_index? {sh : Shape} {key : String} (h : sh.index? key = none) {f : Field}
    (hf : f ∈ sh.fields) : f.key ≠ key := by
  simpa using List.findIdx?_eq_none_iff.mp h f hf

section
variable {sh : Shape} {x : Member} {l m v s : Octets} (hl : Blanks l) (hm : Blanks m)
  (hv : Spells x.saying v) (hs : EndsNumber s)
include hl hm hv hs

/-- A member with another key is passed over. -/
theorem Shape.member_other (hx : sh.index? x.key = none) (slots : Slots) :
    sh.member x.key slots (l ++ 58 :: (m ++ (v ++ s))) = .ok (slots, s) := by
  simp only [Shape.member, hx, colon_spelled hl, bind, Except.bind,
    skipValue_passes hm hv.wellFormed hs, within]
  rfl

theorem Shape.member_field {slots : Slots} {i : Nat} (hx : sh.index? x.key = some i) {f : Field}
    (hf : sh.fields[i]? = some f) (hslot : slots[i]?.join = none) {y : Scalar}
    (hy : f.kind.taken? x.saying = some y) :
    sh.member x.key slots (l ++ 58 :: (m ++ (v ++ s))) = .ok (slots.set i (some y), s) := by
  have hkind : (sh.fields[i]?.map Field.kind).getD .text = f.kind := by
    rw [hf]
    rfl
  simp only [Shape.member, hx, hslot, hkind, colon_spelled hl, bind, Except.bind,
    Kind.read_spelled hy hv hm hs, within]
  rfl

variable (hkeys : (sh.fields.map Field.key).Nodup) {found : List Member} {slots : Slots}
  (hfound : SlotsFound found sh.fields slots)
include hkeys hfound

/-- A member is read that has another key, or what its field takes where there was none yet. -/
theorem Shape.member_spelled (hfresh : ∀ f ∈ sh.fields, x.key = f.key →
      (∀ y ∈ found, y.key ≠ f.key) ∧ ∃ y, f.kind.taken? x.saying = some y) :
    ∃ slots', sh.member x.key slots (l ++ 58 :: (m ++ (v ++ s))) = .ok (slots', s) ∧
      SlotsFound (found ++ [x]) sh.fields slots' := by
  cases hx : sh.index? x.key with
  | none =>
    refine ⟨slots, Shape.member_other hl hm hv hs hx slots, hfound.append fun f hf heq => ?_⟩
    exact Shape.key_ne_of_index? hx hf heq.symm
  | some i =>
    obtain ⟨f, hf, hmem, hkey⟩ := Shape.index?_eq_some hx
    obtain ⟨hnone, y, hy⟩ := hfresh f hmem hkey.symm
    have hslot : slots[i]?.join = none := by
      have hslot := hfound.slot hf
      cases hvalue : slots[i]?.join with
      | none => rfl
      | some z =>
        rw [hvalue] at hslot
        obtain ⟨w, hw, hwkey, -⟩ := hslot
        exact absurd hwkey (hnone w hw)
    have hset := hfound.set hkeys hf hkey.symm (.inr hy)
    exact ⟨_, Shape.member_field hl hm hv hs hx hf hslot hy, hset⟩

/-- If a member is read, then up to its end, and it is the first with the key of a field. -/
theorem Shape.found_of_member (honce : sh.Once found) {slots' : Slots} {rest : Octets}
    (h : sh.member x.key slots (l ++ 58 :: (m ++ (v ++ s))) = .ok (slots', rest)) :
    rest = s ∧ sh.Once (found ++ [x]) ∧ SlotsFound (found ++ [x]) sh.fields slots' := by
  cases hx : sh.index? x.key with
  | none =>
    rw [Shape.member_other hl hm hv hs hx] at h
    obtain ⟨rfl, rfl⟩ := Prod.mk.inj (Except.ok.inj h)
    have hother : ∀ f ∈ sh.fields, x.key ≠ f.key := fun f hf heq =>
      Shape.key_ne_of_index? hx hf heq.symm
    refine ⟨rfl, fun f hf => ?_, hfound.append hother⟩
    rw [List.map_append, List.count_append, List.map_singleton,
      List.count_singleton, if_neg (by simp [hother f hf])]
    exact honce f hf
  | some i =>
    obtain ⟨f, hf, hmem, hkey⟩ := Shape.index?_eq_some hx
    have hkind : (sh.fields[i]?.map Field.kind).getD .text = f.kind := by
      rw [hf]
      rfl
    have hslot := hfound.slot hf
    simp only [Shape.member, hx] at h
    split at h
    · cases h
    · next hnone =>
      rw [hnone] at hslot
      rw [colon_spelled hl, hkind] at h
      obtain ⟨_, hcolon, hvalue⟩ := ok_of_bind h
      obtain rfl := Except.ok.inj hcolon
      obtain ⟨⟨y, left⟩, hread, hset⟩ := ok_of_bind hvalue
      obtain ⟨rfl, rfl⟩ := Prod.mk.inj (Except.ok.inj hset)
      obtain ⟨rfl, hy⟩ := Kind.taken_of_read hv hm hs (ok_of_within hread)
      refine ⟨rfl, fun g hg => ?_, hfound.set hkeys hf hkey.symm hy⟩
      rw [List.map_append, List.count_append, List.map_singleton, List.count_singleton]
      by_cases hsame : x.key = g.key
      · have hnot : (found.map Member.key).count g.key = 0 := by
          apply List.count_eq_zero.mpr
          intro hin
          obtain ⟨z, hz, hzkey⟩ := List.mem_map.mp hin
          exact hslot z hz (by rw [hzkey, ← hsame, hkey])
        rw [hnot]
        split <;> omega
      · rw [if_neg (by simpa using hsame)]
        exact honce g hg

end

/-! ## All members -/

theorem Shape.members_member {sh : Shape} (fuel : Nat) (first : Bool) (slots : Slots) {x : Member}
    {l m k : Octets} (hl : Blanks l) (hm : Blanks m) (hk : SpellsText x.key.toList k) (s : Octets) :
    sh.members (fuel + 1) first slots (l ++ (lead first ++ (m ++ 34 :: (k ++ 34 :: s)))) =
      sh.member x.key slots s >>= fun p => sh.members fuel false p.1 p.2 := by
  have hkey := text_spelled hk s
  rw [String.ofList_toList] at hkey
  simp only [Shape.members, nextKey_spelled first hl hm, hkey, bind, Except.bind]

theorem Shape.members_closing {sh : Shape} (fuel : Nat) (first : Bool) (slots : Slots)
    {l : Octets} (hl : Blanks l) (rest : Octets) :
    sh.members (fuel + 1) first slots (l ++ 125 :: rest) = .ok (slots, l ++ 125 :: rest) := by
  have hblank : isBlank 125 = false := rfl
  simp only [Shape.members, nextKey, skipBlanks_append_cons hl hblank, if_true]

theorem pastClosing_closing {l : Octets} (hl : Blanks l) (rest : Octets) :
    pastClosing .object (l ++ 125 :: rest) = rest := by
  have hblank : isBlank 125 = false := rfl
  simp only [pastClosing, skipBlanks_append_cons hl hblank]
  rfl

section
variable {sh : Shape} (hkeys : (sh.fields.map Field.key).Nodup)
include hkeys

theorem Shape.members_spelled {first : Bool} {xs : List Member} {w : Octets}
    (h : SpellsMembers first xs w) {found : List Member} {slots : Slots}
    (hfound : SlotsFound found sh.fields slots) (honce : sh.Once (found ++ xs))
    (htaken : ∀ x ∈ xs, ∀ f ∈ sh.fields, x.key = f.key → ∃ y, f.kind.taken? x.saying = some y)
    {fuel : Nat} (hfuel : xs.length < fuel) (rest : Octets) :
    ∃ slots' s, sh.members fuel first slots (w ++ rest) = .ok (slots', s) ∧
      SlotsFound (found ++ xs) sh.fields slots' ∧ pastClosing .object s = rest := by
  induction h generalizing found slots fuel with
  | @closing first l hl =>
    obtain ⟨fuel, rfl⟩ := Nat.exists_eq_add_one_of_ne_zero (Nat.ne_of_gt hfuel)
    rw [List.append_assoc, List.append_nil]
    exact ⟨slots, _, Shape.members_closing fuel first slots hl rest, hfound,
      pastClosing_closing hl rest⟩
  | @member first x xs l m w ws hl hm hx hxs ih =>
    obtain ⟨fuel, rfl⟩ := Nat.exists_eq_add_one_of_ne_zero (Nat.ne_of_gt (Nat.zero_lt_of_lt hfuel))
    cases hx with
    | @pair k l' m' v hk hl' hm' hv =>
      have hend := hxs.endsNumber rest
      have hfresh : ∀ f ∈ sh.fields, x.key = f.key →
          (∀ y ∈ found, y.key ≠ f.key) ∧ ∃ y, f.kind.taken? x.saying = some y := by
        intro f hf hkey
        refine ⟨fun y hy hykey => ?_, htaken x List.mem_cons_self f hf hkey⟩
        have hcount := honce f hf
        rw [List.map_append, List.count_append, List.map_cons, List.count_cons,
          if_pos (by simp [hkey])] at hcount
        have hpos : 0 < (found.map Member.key).count f.key :=
          List.count_pos_iff.mpr (List.mem_map.mpr ⟨y, hy, hykey⟩)
        omega
      obtain ⟨between, hread, hbetween⟩ :=
        Shape.member_spelled hl' hm' hv hend hkeys hfound hfresh
      have honce' : sh.Once ((found ++ [x]) ++ xs) := by
        rw [List.append_assoc]
        exact honce
      obtain ⟨slots', s, hlater, hslots, hpast⟩ := ih hbetween honce'
        (fun y hy => htaken y (List.mem_cons_of_mem x hy)) (Nat.lt_of_succ_lt_succ hfuel)
      rw [List.append_assoc, List.singleton_append] at hslots
      refine ⟨slots', s, ?_, hslots, hpast⟩
      simp only [List.append_assoc, List.cons_append]
      rw [Shape.members_member fuel first slots hl hm hk, hread]
      exact hlater

theorem Shape.found_of_members {first : Bool} {xs : List Member} {w : Octets}
    (h : SpellsMembers first xs w) {found : List Member} {slots : Slots}
    (hfound : SlotsFound found sh.fields slots) (honce : sh.Once found) {fuel : Nat}
    {rest s : Octets} {slots' : Slots}
    (hread : sh.members fuel first slots (w ++ rest) = .ok (slots', s)) :
    sh.Once (found ++ xs) ∧ SlotsFound (found ++ xs) sh.fields slots' ∧
      pastClosing .object s = rest := by
  induction h generalizing found slots fuel with
  | @closing first l hl =>
    cases fuel with
    | zero => cases hread
    | succ fuel =>
      rw [List.append_assoc, List.singleton_append,
        Shape.members_closing fuel first slots hl] at hread
      obtain ⟨rfl, rfl⟩ := Prod.mk.inj (Except.ok.inj hread)
      rw [List.append_nil]
      exact ⟨honce, hfound, pastClosing_closing hl rest⟩
  | @member first x xs l m w ws hl hm hx hxs ih =>
    cases fuel with
    | zero => cases hread
    | succ fuel =>
      cases hx with
      | @pair k l' m' v hk hl' hm' hv =>
        simp only [List.append_assoc, List.cons_append] at hread
        rw [Shape.members_member fuel first slots hl hm hk] at hread
        obtain ⟨⟨between, left⟩, hmember, hlater⟩ := ok_of_bind hread
        obtain ⟨rfl, honce', hbetween⟩ :=
          Shape.found_of_member hl' hm' hv (hxs.endsNumber rest) hkeys hfound honce hmember
        have hall := ih hbetween honce' hlater
        rw [List.append_assoc, List.singleton_append] at hall
        exact hall

end

end MailDispatch.Json
