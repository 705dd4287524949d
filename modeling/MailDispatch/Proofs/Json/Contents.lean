import Mathlib.Data.List.Forall2
import MailDispatch.Proofs.Json.Numbers
import MailDispatch.Proofs.Json.Spelling

/-! # What the fields of a record hold that was read

A value gets into a record in two ways: a field of its kind reads it, or it is the fallback
of its field. Neither gives a field a value that it cannot hold, whether the record comes as
an object, with its members in any order, or as a list.
-/
namespace MailDispatch.Json
open Text Numeral Time

/-! ## Values of a kind -/

/-- What a field of a kind can hold: numbers of 64 bits, and all texts and times. -/
def Kind.Holds : Kind → Scalar → Prop
  | .whole, .whole n => Bounds.int64.Contains n
  | .text, .text _ => True
  | .time, .time _ => True
  | _, _ => False

instance (k : Kind) (v : Scalar) : Decidable (k.Holds v) := by
  unfold Kind.Holds
  split <;> infer_instance

/-- The values are those of the fields, in order. -/
def Shape.Fits (sh : Shape) (vs : List Scalar) : Prop :=
  List.Forall₂ (fun f v => f.kind.Holds v) sh.fields vs

/-- No two fields share a key, and a field holds its own fallback. -/
structure Shape.Regular (sh : Shape) : Prop where
  keys_nodup : (sh.fields.map Field.key).Nodup
  holds_fallback : ∀ f ∈ sh.fields, ∀ v ∈ f.fallback, f.kind.Holds v

theorem Kind.holds_of_read {k : Kind} {s rest : Octets} {v : Scalar}
    (h : k.read s = .ok (v, rest)) : k.Holds v := by
  unfold Kind.read at h
  dsimp only at h
  split at h
  · cases h
  · cases k with
    | whole =>
      obtain ⟨⟨n, left⟩, hread, hvalue⟩ := ok_of_bind h
      obtain ⟨rfl, -⟩ := Prod.mk.inj (Except.ok.inj hvalue)
      exact contains_of_wholeNumber hread
    | text =>
      obtain ⟨⟨t, left⟩, -, hvalue⟩ := ok_of_bind h
      obtain ⟨rfl, -⟩ := Prod.mk.inj (Except.ok.inj hvalue)
      trivial
    | time =>
      obtain ⟨⟨t, left⟩, -, hvalue⟩ := ok_of_bind h
      dsimp only at hvalue
      split at hvalue
      · obtain ⟨rfl, -⟩ := Prod.mk.inj (Except.ok.inj hvalue)
        trivial
      · cases hvalue

theorem ok_of_within {α : Type} {place : Place} {r : Except Problem α} {a : α}
    (h : within place r = .ok a) : r = .ok a := by
  cases r with
  | error p => cases h
  | ok b => exact h

/-! ## Objects -/

/-- No slot has a value that its field cannot hold. -/
def SlotsFit (fs : List Field) (slots : Slots) : Prop :=
  List.Forall₂ (fun f slot => ∀ v ∈ slot, f.kind.Holds v) fs slots

theorem SlotsFit.empty (fs : List Field) : SlotsFit fs (fs.map fun _ => none) := by
  induction fs with
  | nil => exact .nil
  | cons f fs ih => exact .cons (by simp) ih

theorem SlotsFit.set {fs : List Field} {slots : Slots} (h : SlotsFit fs slots) {i : Nat} {f : Field}
    {v : Scalar} (hf : fs[i]? = some f) (hv : f.kind.Holds v) :
    SlotsFit fs (slots.set i (some v)) := by
  induction h generalizing i with
  | nil => cases hf
  | @cons g slot fs slots hslot hrest ih =>
    cases i with
    | zero =>
      obtain rfl := Option.some.inj hf
      refine .cons ?_ hrest
      rintro w ⟨⟩
      exact hv
    | succ i => exact .cons hslot (ih hf)

theorem SlotsFit.member {sh : Shape} {slots slots' : Slots} {key : String} {s rest : Octets}
    (hslots : SlotsFit sh.fields slots) (h : sh.member key slots s = .ok (slots', rest)) :
    SlotsFit sh.fields slots' := by
  unfold Shape.member at h
  split at h
  · obtain ⟨_, -, h⟩ := ok_of_bind h
    obtain ⟨_, -, h⟩ := ok_of_bind h
    obtain ⟨rfl, -⟩ := Prod.mk.inj (Except.ok.inj h)
    exact hslots
  · next i hindex =>
    split at h
    · cases h
    · obtain ⟨_, -, h⟩ := ok_of_bind h
      obtain ⟨⟨v, left⟩, hread, h⟩ := ok_of_bind h
      obtain ⟨rfl, -⟩ := Prod.mk.inj (Except.ok.inj h)
      obtain ⟨hi, -⟩ := List.findIdx?_eq_some_iff_getElem.mp hindex
      have hfield : sh.fields[i]? = some sh.fields[i] := List.getElem?_eq_getElem hi
      have hv := Kind.holds_of_read (ok_of_within hread)
      rw [hfield] at hv
      exact hslots.set hfield hv

theorem SlotsFit.members {sh : Shape} {fuel : Nat} {first : Bool} {slots slots' : Slots}
    {s rest : Octets} (hslots : SlotsFit sh.fields slots)
    (h : sh.members fuel first slots s = .ok (slots', rest)) : SlotsFit sh.fields slots' := by
  induction fuel generalizing first slots s with
  | zero => cases h
  | succ fuel ih =>
    unfold Shape.members at h
    split at h
    · cases h
    · obtain ⟨rfl, -⟩ := Prod.mk.inj (Except.ok.inj h)
      exact hslots
    · obtain ⟨⟨key, _⟩, -, h⟩ := ok_of_bind h
      obtain ⟨⟨between, _⟩, hmember, h⟩ := ok_of_bind h
      exact ih (hslots.member hmember) h

theorem SlotsFit.fill {fs : List Field} {slots : Slots} {vs : List Scalar} (h : SlotsFit fs slots)
    (hfallback : ∀ f ∈ fs, ∀ v ∈ f.fallback, f.kind.Holds v) (hfill : fill fs slots = .ok vs) :
    List.Forall₂ (fun f v => f.kind.Holds v) fs vs := by
  induction h generalizing vs with
  | nil =>
    obtain rfl := Except.ok.inj hfill
    exact .nil
  | @cons f slot fs slots hslot hrest ih =>
    unfold Json.fill at hfill
    rw [List.headD_cons, List.tail_cons] at hfill
    split at hfill
    · next v hv =>
      obtain ⟨later, hlater, rfl⟩ := ok_of_map hfill
      refine .cons ?_ (ih (fun g hg => hfallback g (List.mem_cons_of_mem f hg)) hlater)
      rcases Option.or_eq_some_iff.mp hv with hfound | ⟨-, hother⟩
      · exact hslot v hfound
      · exact hfallback f List.mem_cons_self v hother
    · cases hfill

theorem Shape.fits_of_object {sh : Shape} (hsh : sh.Regular) {s rest : Octets} {vs : List Scalar}
    (h : sh.object s = .ok (vs, rest)) : sh.Fits vs := by
  obtain ⟨⟨slots, _⟩, hmembers, h⟩ := ok_of_bind h
  dsimp only at h
  split at h
  · next hfill =>
    obtain ⟨rfl, -⟩ := Prod.mk.inj (Except.ok.inj h)
    exact ((SlotsFit.empty sh.fields).members hmembers).fill hsh.holds_fallback hfill
  · cases h

/-! ## Lists -/

theorem Shape.fits_of_elements {sh : Shape} {fs : List Field}
    (hfallback : ∀ f ∈ fs, ∀ v ∈ f.fallback, f.kind.Holds v) {i : Nat} {s rest : Octets}
    {vs : List Scalar} (h : sh.elements fs i s = .ok (vs, rest)) :
    List.Forall₂ (fun f v => f.kind.Holds v) fs vs := by
  induction fs generalizing i s vs rest with
  | nil =>
    obtain ⟨rfl, -⟩ := Prod.mk.inj (Except.ok.inj h)
    exact .nil
  | cons f fs ih =>
    have hlater : ∀ g ∈ fs, ∀ v ∈ g.fallback, g.kind.Holds v := fun g hg =>
      hfallback g (List.mem_cons_of_mem f hg)
    unfold Shape.elements at h
    split at h
    · cases h
    · split at h
      · next v hv =>
        obtain ⟨⟨found, _⟩, hrest, heq⟩ := ok_of_map h
        obtain ⟨rfl, -⟩ := Prod.mk.inj heq
        exact .cons (hfallback f List.mem_cons_self v hv) (ih hlater hrest)
      · cases h
    · obtain ⟨⟨v, _⟩, hread, h⟩ := ok_of_bind h
      obtain ⟨⟨found, _⟩, hrest, h⟩ := ok_of_bind h
      obtain ⟨rfl, -⟩ := Prod.mk.inj (Except.ok.inj h)
      exact .cons (Kind.holds_of_read (ok_of_within hread)) (ih hlater hrest)

theorem Shape.fits_of_list {sh : Shape} (hsh : sh.Regular) {s rest : Octets} {vs : List Scalar}
    (h : sh.list s = .ok (vs, rest)) : sh.Fits vs := by
  obtain ⟨⟨found, _⟩, helements, h⟩ := ok_of_bind h
  obtain ⟨_, -, h⟩ := ok_of_bind h
  obtain ⟨rfl, -⟩ := Prod.mk.inj (Except.ok.inj h)
  exact Shape.fits_of_elements hsh.holds_fallback helements

/-! ## Documents -/

theorem Shape.fits_of_read {sh : Shape} (hsh : sh.Regular) {s rest : Octets} {vs : List Scalar}
    (h : sh.read s = .ok (vs, rest)) : sh.Fits vs := by
  unfold Shape.read at h
  split at h
  · cases h
  · split at h
    · exact Shape.fits_of_list hsh h
    · split at h
      · exact Shape.fits_of_object hsh h
      · cases h

theorem Shape.fits_of_readEntire {sh : Shape} (hsh : sh.Regular) {s : Octets} {vs : List Scalar}
    (h : sh.readEntire s = .ok vs) : sh.Fits vs := by
  obtain ⟨⟨found, rest⟩, hread, h⟩ := ok_of_bind h
  dsimp only at h
  split at h
  · obtain rfl := Except.ok.inj h
    exact Shape.fits_of_read hsh hread
  · cases h

end MailDispatch.Json
