import MailDispatch.Proofs.Json.Respelling
import MailDispatch.Proofs.Mailing.RoundTrip

/-! # Requests and records by what they say

What is decoded depends on what the members with known keys say. How they are spelled, in which
order they come, which blanks are between them and which other members are among them makes no
difference, and neither does it whether the values come as an object or as a list.
-/
namespace MailDispatch.Mailing
open Text Octets Json

namespace Record

variable {α : Type} {r : Record α}

/-- A way to read the documents of a record, each with something of a kind behind it, goes by
the members with known keys alone. -/
structure GoesByMembers (r : Record α) (read : Octets → Except Problem α) (Rest : Octets → Prop) :
    Prop where
  /-- Whatever is accepted as an object is the spelling of some members. -/
  spelled : ∀ s a, StartsObject s → read s = .ok a →
    ∃ xs w rest, SpellsObject xs w ∧ r.shape.Plain xs ∧ Rest rest ∧ s = w ++ rest
  /-- Every spelling of the same known members, in any order and with any others among them, is
  accepted for the same value. -/
  respelled : ∀ xs ys w w' rest rest' a, SpellsObject xs w → r.shape.Plain xs →
    SpellsObject ys w' → (xs.filter r.shape.asks).Perm (ys.filter r.shape.asks) → Rest rest' →
    read (w ++ rest) = .ok a → read (w' ++ rest') = .ok a
  /-- The values of all fields can be given as a list in the order of the fields. -/
  listed : ∀ s a, read s = .ok a →
    (∃ cs w, TakesAll r.shape.fields cs (r.values a) ∧ SpellsList cs w) ∧
      ∀ cs w rest, TakesAll r.shape.fields cs (r.values a) → SpellsList cs w → Rest rest →
        read (w ++ rest) = .ok a
  /-- An object with a known key twice is refused, whatever its values are. -/
  refused : ∀ xs w rest a, ∀ f ∈ r.shape.fields, SpellsObject xs w →
    2 ≤ (xs.map Member.key).count f.key → read (w ++ rest) ≠ .ok a

/-- What is read of a document, and what stands behind it. -/
def Reads (r : Record α) (s : Octets) (a : α) (rest : Octets) : Prop :=
  ∃ vs, r.shape.read s = .ok (vs, rest) ∧ r.ofValues? vs = some a

theorem decode_eq_ok_iff {vs : List Scalar} {a : α} :
    r.decode vs = .ok a ↔ r.ofValues? vs = some a := by
  unfold decode
  constructor
  · intro h
    split at h
    · next hb =>
      obtain rfl := Except.ok.inj h
      exact hb
    · cases h
  · intro h
    rw [h]

theorem read_eq_ok_iff {s : Octets} {a : α} :
    r.read s = .ok a ↔ ∃ rest, True ∧ r.Reads s a rest := by
  constructor
  · intro h
    obtain ⟨⟨vs, rest⟩, hread, hdecode⟩ := ok_of_bind h
    exact ⟨rest, trivial, vs, hread, decode_eq_ok_iff.mp hdecode⟩
  · rintro ⟨rest, -, vs, hread, hvalue⟩
    simp only [read, hread, bind, Except.bind, decode_eq_ok_iff.mpr hvalue]

theorem readEntire_eq_ok_iff {s : Octets} {a : α} :
    r.readEntire s = .ok a ↔ ∃ rest, Blanks rest ∧ r.Reads s a rest := by
  constructor
  · intro h
    obtain ⟨vs, hentire, hdecode⟩ := ok_of_bind h
    obtain ⟨⟨found, rest⟩, hread, hend⟩ := ok_of_bind hentire
    dsimp only at hend
    split at hend
    · next hnil =>
      obtain rfl := Except.ok.inj hend
      obtain ⟨l, hl, rfl⟩ := blanks_of_skipBlanks hnil
      rw [List.append_nil] at hread
      exact ⟨l, hl, found, hread, decode_eq_ok_iff.mp hdecode⟩
    · cases hend
  · rintro ⟨rest, hrest, vs, hread, hvalue⟩
    have hskip : skipBlanks rest = [] := by
      have happend := skipBlanks_append hrest []
      rwa [List.append_nil] at happend
    simp only [readEntire, Shape.readEntire, entire, hread, bind, Except.bind, hskip, pure,
      Except.pure, decode_eq_ok_iff.mpr hvalue]

theorem Faithful.goesByMembers (h : r.Faithful) {read : Octets → Except Problem α}
    {Rest : Octets → Prop} (hread : ∀ s a, read s = .ok a ↔ ∃ rest, Rest rest ∧ r.Reads s a rest) :
    r.GoesByMembers read Rest where
  spelled s a hstart hs := by
    obtain ⟨rest, hrest, vs, hvs, -⟩ := (hread s a).mp hs
    obtain ⟨xs, w, hw, hplain, heq⟩ := Shape.spelled_of_read h.regular.keys_nodup hstart hvs
    exact ⟨xs, w, rest, hw, hplain, hrest, heq⟩
  respelled xs ys w w' rest rest' a hw hplain hw' hperm hrest' hs := by
    obtain ⟨t, -, vs, hvs, hvalue⟩ := (hread _ a).mp hs
    obtain ⟨-, -, hmeans⟩ := Shape.found_of_read h.regular.keys_nodup hw hvs
    have hread' := Shape.read_spelled h.regular.keys_nodup hw' ((hmeans hplain).of_perm hperm) rest'
    exact (hread _ a).mpr ⟨rest', hrest', vs, hread', hvalue⟩
  listed s a hs := by
    obtain ⟨t, -, vs, hvs, hvalue⟩ := (hread s a).mp hs
    have hvalues := h.values_of_ofValues? vs a hvalue
    constructor
    · obtain ⟨cs, w, hcs, hw⟩ := exists_takesAll (Shape.fits_of_read h.regular hvs) true
      rw [hvalues]
      exact ⟨cs, _, hcs, .list .nil hw⟩
    · intro cs w rest hcs hw hrest
      have hlist := Shape.read_listed hw hcs rest
      exact (hread _ a).mpr ⟨rest, hrest, _, hlist, h.ofValues?_values a⟩
  refused xs w rest a f hf hw htwice hs := by
    obtain ⟨t, -, vs, hvs, -⟩ := (hread _ a).mp hs
    obtain ⟨honce, -, -⟩ := Shape.found_of_read h.regular.keys_nodup hw hvs
    exact absurd (honce f hf) (Nat.not_le.mpr htwice)

/-- Bodies are read without a look at what stands behind them, and documents to their end. -/
def Indifferent (r : Record α) : Prop :=
  r.GoesByMembers r.read (fun _ => True) ∧ r.GoesByMembers r.readEntire Blanks

theorem Faithful.indifferent (h : r.Faithful) : r.Indifferent :=
  ⟨h.goesByMembers fun _ _ => read_eq_ok_iff, h.goesByMembers fun _ _ => readEntire_eq_ok_iff⟩

end Record

/-- The decoders of the service go by the members with known keys. -/
theorem decoders_go_by_known_members :
    createRecord.Indifferent ∧ sendRecord.Indifferent ∧ customerRecord.Indifferent ∧
      entryRecord.Indifferent :=
  ⟨createRecord_faithful.indifferent, sendRecord_faithful.indifferent,
    customerRecord_faithful.indifferent, entryRecord_faithful.indifferent⟩

/-- Another member may be nested, and what is passed over in it need not spell characters. -/
example : sendRecord.read (ofChars
      "\x7b\"x\":[\x7b\"\\ud800\":-1e999\x7d],\"\\u006Dailing_id\" : 7\x7d".toList) =
    .ok ⟨⟨7⟩⟩ := by
  rfl

end MailDispatch.Mailing
