import Mathlib.Data.List.Nodup
import MailDispatch.Proofs.Json.Respelling

/-! # Written records read back

The written form of a record is a spelling of one member for each field, in the order of the
fields. So it is read for the values that it was written for. This needs that no two fields
share a key, since a member would be taken for another field otherwise.
-/
namespace MailDispatch.Json
open Text Octets

/-- The members of the written form. -/
def writtenFields (fs : List Field) (vs : List Scalar) : List Member :=
  List.zipWith (fun f v => ⟨f.key, v.saying⟩) fs vs

theorem map_key_writtenFields {fs : List Field} {vs : List Scalar}
    (h : vs.length = fs.length) : (writtenFields fs vs).map Member.key = fs.map Field.key := by
  induction fs generalizing vs with
  | nil => rfl
  | cons f fs ih =>
    cases vs with
    | nil => cases h
    | cons v vs =>
      rw [writtenFields, List.zipWith_cons_cons, List.map_cons, List.map_cons]
      exact congrArg _ (ih (Nat.succ.inj h))

/-- The written members mean the values that they were written for. -/
theorem Shape.means_written {sh : Shape} (hkeys : (sh.fields.map Field.key).Nodup)
    {vs : List Scalar} (hfits : sh.Fits vs) : sh.Means (writtenFields sh.fields vs) vs := by
  constructor
  · intro f _
    rw [map_key_writtenFields hfits.length_eq.symm]
    exact List.nodup_iff_count_le_one.mp hkeys f.key
  · refine List.forall₂_iff_get.mpr ⟨hfits.length_eq, fun i hi hi' => .inl ?_⟩
    have hholds := (List.forall₂_iff_get.mp hfits).2 i hi hi'
    refine ⟨⟨(sh.fields.get ⟨i, hi⟩).key, (vs.get ⟨i, hi'⟩).saying⟩, ?_, rfl,
      Kind.taken_saying hholds⟩
    rw [writtenFields, List.mem_iff_getElem]
    exact ⟨i, by rw [List.length_zipWith]; omega, by rw [List.getElem_zipWith]; rfl⟩

/-! ## The written form is a spelling -/

theorem spellsMember_written (key : String) (v : Scalar) :
    SpellsMember ⟨key, v.saying⟩ (ofChars (writtenMember key v.written)) := by
  have hmember : ofChars (writtenMember key v.written) =
      34 :: (ofChars (key.toList.flatMap writtenChar) ++
        34 :: ([] ++ 58 :: ([] ++ ofChars v.written))) := by
    rw [writtenMember, ofChars_append, ofChars_writtenText, ofChars_cons_of_ascii (by decide)]
    simp only [List.cons_append, List.append_assoc, List.nil_append]
    rfl
  rw [hmember]
  exact .pair (spellsText_written key.toList) .nil .nil v.spells_written

theorem writtenMembers_cons (m : List Char) (ms : List (List Char)) :
    writtenMembers (m :: ms) = m ++ ms.flatMap (',' :: ·) := by
  induction ms generalizing m with
  | nil => exact (List.append_nil m).symm
  | cons next ms ih =>
    rw [writtenMembers, ih, List.flatMap_cons, List.cons_append]
    exact List.cons_ne_nil next ms

/-- Members behind another one, each after a comma. -/
theorem spellsMembers_later (fs : List Field) (vs : List Scalar) :
    SpellsMembers false (writtenFields fs vs) (ofChars
      ((List.zipWith (fun f v => writtenMember f.key v.written) fs vs).flatMap (',' :: ·)) ++
        [125]) := by
  induction fs generalizing vs with
  | nil => exact .closing .nil
  | cons f fs ih =>
    cases vs with
    | nil => exact .closing .nil
    | cons v vs =>
      rw [List.zipWith_cons_cons, List.flatMap_cons, List.cons_append,
        ofChars_cons_of_ascii (by decide), ofChars_append, List.cons_append, List.append_assoc]
      exact .member .nil .nil (spellsMember_written f.key v) (ih vs)

theorem Shape.spellsObject_written (sh : Shape) (vs : List Scalar) :
    SpellsObject (writtenFields sh.fields vs) (ofChars (sh.written vs)) := by
  have hwritten : ofChars (sh.written vs) = [] ++ 123 :: (ofChars (writtenMembers
      (List.zipWith (fun f v => writtenMember f.key v.written) sh.fields vs)) ++ [125]) := by
    rw [Shape.written, writtenObject, List.cons_append, ofChars_cons_of_ascii (by decide),
      ofChars_append]
    rfl
  rw [hwritten]
  refine .object .nil ?_
  cases hfs : sh.fields with
  | nil => exact .closing .nil
  | cons f fs =>
    cases vs with
    | nil => exact .closing .nil
    | cons v vs =>
      rw [List.zipWith_cons_cons, writtenMembers_cons, ofChars_append, List.append_assoc]
      exact .member .nil .nil (spellsMember_written f.key v) (spellsMembers_later fs vs)

/-- A record is read from its written form. -/
theorem Shape.readEntire_written {sh : Shape} (hkeys : (sh.fields.map Field.key).Nodup)
    {vs : List Scalar} (hfits : sh.Fits vs) : sh.readEntire (ofChars (sh.written vs)) = .ok vs := by
  have hread := Shape.read_spelled hkeys (sh.spellsObject_written vs)
    (Shape.means_written hkeys hfits) []
  rw [List.append_nil] at hread
  simp only [Shape.readEntire, entire, hread, bind, Except.bind]
  rfl

end MailDispatch.Json
