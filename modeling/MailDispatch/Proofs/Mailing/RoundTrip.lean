import MailDispatch.Mailing.Records
import MailDispatch.Proofs.Json.Objects

/-! # Records of the service read back

The reader and the writer of a record take the same shape, and a record is made of field
values as it gives them. So a value is read from what is written of it, and an answer that is
made from a document can itself be taken for the document: the answer to it is the same.
-/
namespace MailDispatch

def Id.IsInt64 {k : IdKind} (i : Id k) : Prop := Text.Numeral.Bounds.int64.Contains i.val

instance {k : IdKind} (i : Id k) : Decidable i.IsInt64 :=
  inferInstanceAs (Decidable (Text.Numeral.Bounds.Contains _ _))

namespace Mailing
open Text Octets Json Time

namespace Record

variable {α : Type} {r : Record α}

/-- The field values and the value they make determine each other. -/
structure Faithful (r : Record α) : Prop where
  regular : r.shape.Regular
  ofValues?_values : ∀ a, r.ofValues? (r.values a) = some a
  values_of_ofValues? : ∀ vs a, r.ofValues? vs = some a → r.values a = vs

/-- The field values of a value are ones that its fields can hold. -/
def Fits (r : Record α) (a : α) : Prop := r.shape.Fits (r.values a)

/-- The document that is answered when a document is read and its value is written. -/
def rewritten (r : Record α) (s : Octets) : Except Problem Octets :=
  (r.readEntire s).map fun a => ofChars (r.written a)

theorem Faithful.readEntire_written (h : r.Faithful) {a : α} (ha : r.Fits a) :
    r.readEntire (ofChars (r.written a)) = .ok a := by
  have hvalues := Shape.readEntire_written h.regular.keys_nodup ha
  have hdecode : r.decode (r.values a) = .ok a := by
    simp only [decode, h.ofValues?_values]
  simp only [readEntire, written, hvalues, bind, Except.bind, hdecode]

theorem Faithful.fits_of_readEntire (h : r.Faithful) {s : Octets} {a : α}
    (hread : r.readEntire s = .ok a) : r.Fits a := by
  obtain ⟨vs, hvs, hdecode⟩ := ok_of_bind hread
  unfold decode at hdecode
  split at hdecode
  · next b hb =>
    obtain rfl := Except.ok.inj hdecode
    have hfits := Shape.fits_of_readEntire h.regular hvs
    rw [Fits, h.values_of_ofValues? vs b hb]
    exact hfits
  · cases hdecode

theorem Faithful.rewritten_idempotent (h : r.Faithful) {s t : Octets}
    (hst : r.rewritten s = .ok t) : r.rewritten t = .ok t := by
  obtain ⟨a, hread, rfl⟩ := ok_of_map hst
  rw [rewritten, h.readEntire_written (h.fits_of_readEntire hread)]
  rfl

end Record

/-! ## The records of the service -/

theorem customerRecord_faithful : customerRecord.Faithful where
  regular := ⟨by decide, by decide⟩
  ofValues?_values := fun _ => rfl
  values_of_ofValues? vs a h := by
    simp only [customerRecord] at h
    split at h
    · obtain rfl := Option.some.inj h
      rfl
    · cases h

theorem entryRecord_faithful : entryRecord.Faithful where
  regular := ⟨by decide, by decide⟩
  ofValues?_values := fun _ => rfl
  values_of_ofValues? vs a h := by
    simp only [entryRecord] at h
    split at h
    · obtain rfl := Option.some.inj h
      rfl
    · cases h

theorem createRecord_faithful : createRecord.Faithful where
  regular := ⟨by decide, by decide⟩
  ofValues?_values := fun _ => rfl
  values_of_ofValues? vs a h := by
    simp only [createRecord] at h
    split at h
    · obtain rfl := Option.some.inj h
      rfl
    · cases h

theorem sendRecord_faithful : sendRecord.Faithful where
  regular := ⟨by decide, by decide⟩
  ofValues?_values := fun _ => rfl
  values_of_ofValues? vs a h := by
    simp only [sendRecord] at h
    split at h
    · obtain rfl := Option.some.inj h
      rfl
    · cases h

theorem customerRecord_fits {c : Customer} (h : c.id.IsInt64) : customerRecord.Fits c :=
  .cons h (.cons trivial .nil)

theorem entryRecord_fits {e : Entry} (hid : e.id.IsInt64) (hcustomer : e.customer.IsInt64)
    (hmailing : e.mailing.IsInt64) : entryRecord.Fits e :=
  .cons hid (.cons hcustomer (.cons hmailing (.cons trivial (.cons trivial (.cons trivial .nil)))))

theorem createRecord_fits {d : Draft} (h : d.mailing.IsInt64) : createRecord.Fits d :=
  .cons h (.cons trivial (.cons trivial (.cons trivial (.cons trivial .nil))))

theorem sendRecord_fits {q : SendRequest} (h : q.mailing.IsInt64) : sendRecord.Fits q :=
  .cons h .nil

/-- Customers, entries and requests are read from their written forms, whatever texts they
have and whatever times, if their identifiers have 64 bits. What is answered for a document
of any of them is answered for itself again. -/
theorem written_records_read_back :
    (∀ c : Customer, c.id.IsInt64 →
      customerRecord.readEntire (ofChars (customerRecord.written c)) = .ok c) ∧
    (∀ e : Entry, e.id.IsInt64 → e.customer.IsInt64 → e.mailing.IsInt64 →
      entryRecord.readEntire (ofChars (entryRecord.written e)) = .ok e) ∧
    (∀ d : Draft, d.mailing.IsInt64 →
      createRecord.readEntire (ofChars (createRecord.written d)) = .ok d) ∧
    (∀ q : SendRequest, q.mailing.IsInt64 →
      sendRecord.readEntire (ofChars (sendRecord.written q)) = .ok q) ∧
    (∀ s t, customerRecord.rewritten s = .ok t → customerRecord.rewritten t = .ok t) ∧
    (∀ s t, entryRecord.rewritten s = .ok t → entryRecord.rewritten t = .ok t) ∧
    (∀ s t, createRecord.rewritten s = .ok t → createRecord.rewritten t = .ok t) ∧
    (∀ s t, sendRecord.rewritten s = .ok t → sendRecord.rewritten t = .ok t) := by
  refine ⟨?_, ?_, ?_, ?_, ?_, ?_, ?_, ?_⟩
  · intro c hc
    exact customerRecord_faithful.readEntire_written (customerRecord_fits hc)
  · intro e hid hcustomer hmailing
    exact entryRecord_faithful.readEntire_written (entryRecord_fits hid hcustomer hmailing)
  · intro d hd
    exact createRecord_faithful.readEntire_written (createRecord_fits hd)
  · intro q hq
    exact sendRecord_faithful.readEntire_written (sendRecord_fits hq)
  · exact fun s t h => customerRecord_faithful.rewritten_idempotent h
  · exact fun s t h => entryRecord_faithful.rewritten_idempotent h
  · exact fun s t h => createRecord_faithful.rewritten_idempotent h
  · exact fun s t h => sendRecord_faithful.rewritten_idempotent h

/-- The leap second at the end of the year 2016, half over. -/
def leapSecond : Timestamp :=
  ⟨1483228799, 1500000000, by decide, by decide, by decide, by decide⟩

theorem written_records_read_back_at_the_limits :
    customerRecord.readEntire
        (ofChars (customerRecord.written ⟨⟨-9223372036854775808⟩, "\"\\\x00\x1f\n"⟩)) =
      .ok ⟨⟨-9223372036854775808⟩, "\"\\\x00\x1f\n"⟩ ∧
    entryRecord.readEntire (ofChars (entryRecord.written
        ⟨⟨⟨-1⟩, ⟨0⟩, "", "é", Timestamp.latest⟩, ⟨9223372036854775807⟩⟩)) =
      .ok ⟨⟨⟨-1⟩, ⟨0⟩, "", "é", Timestamp.latest⟩, ⟨9223372036854775807⟩⟩ ∧
    createRecord.readEntire
        (ofChars (createRecord.written ⟨⟨7⟩, "a@b.c", "", "", Timestamp.earliest⟩)) =
      .ok ⟨⟨7⟩, "a@b.c", "", "", Timestamp.earliest⟩ ∧
    sendRecord.readEntire (ofChars (sendRecord.written ⟨⟨-7⟩⟩)) = .ok ⟨⟨-7⟩⟩ ∧
    customerRecord.rewritten (ofChars (customerRecord.written ⟨⟨7⟩, "a"⟩)) =
      .ok (ofChars (customerRecord.written ⟨⟨7⟩, "a"⟩)) ∧
    entryRecord.rewritten (ofChars (entryRecord.written ⟨⟨⟨-2⟩, ⟨3⟩, "", "x", leapSecond⟩, ⟨1⟩⟩)) =
      .ok (ofChars (entryRecord.written ⟨⟨⟨-2⟩, ⟨3⟩, "", "x", leapSecond⟩, ⟨1⟩⟩)) ∧
    createRecord.rewritten (ofChars (createRecord.written ⟨⟨0⟩, "", "", "", leapSecond⟩)) =
      .ok (ofChars (createRecord.written ⟨⟨0⟩, "", "", "", leapSecond⟩)) ∧
    sendRecord.rewritten (ofChars (sendRecord.written ⟨⟨0⟩⟩)) =
      .ok (ofChars (sendRecord.written ⟨⟨0⟩⟩)) := by
  obtain ⟨hcustomer, hentry, hcreate, hsend, hcustomer', hentry', hcreate', hsend'⟩ :=
    written_records_read_back
  -- The documents are lists, have escapes, leave fields out or give the time with an offset.
  have hlist : customerRecord.rewritten (ofChars "[7, \"\\u0061\"]".toList) =
      .ok (ofChars (customerRecord.written ⟨⟨7⟩, "a"⟩)) := rfl
  have hleap : entryRecord.rewritten
        (ofChars "[1,-2,3,\"\",\"x\",\"2016-12-31T23:59:60.5+00:00\"]".toList) =
      .ok (ofChars (entryRecord.written ⟨⟨⟨-2⟩, ⟨3⟩, "", "x", leapSecond⟩, ⟨1⟩⟩)) := rfl
  have hlate : createRecord.rewritten
        (ofChars "\x7b \"insert_time\": \"2016-12-31 23:59:60.50Z\" \x7d".toList) =
      .ok (ofChars (createRecord.written ⟨⟨0⟩, "", "", "", leapSecond⟩)) := rfl
  have hempty : sendRecord.rewritten (ofChars "\x7b\x7d".toList) =
      .ok (ofChars (sendRecord.written ⟨⟨0⟩⟩)) := rfl
  refine ⟨?_, ?_, ?_, ?_, ?_, ?_, ?_, ?_⟩
  · exact hcustomer _ (by decide)
  · exact hentry _ (by decide) (by decide) (by decide)
  · exact hcreate _ (by decide)
  · exact hsend _ (by decide)
  · exact hcustomer' _ _ hlist
  · exact hentry' _ _ hleap
  · exact hcreate' _ _ hlate
  · exact hsend' _ _ hempty

end Mailing
end MailDispatch
