import MailDispatch.Proofs.Json.Listing
import MailDispatch.Proofs.Mailing.Respelling

/-! # Requests by the instant of their time

A body that is read as a request to create an entry has a text for the time among its members, or
behind the other values in a list. What the rest of the body says and the instant of that text make
the request, however the text spells the instant.
-/
namespace MailDispatch.Mailing
open Text Octets Json Time Reader

/-! ## Bodies around a time -/

/-- All that a body says besides its time: the members before and after it, or the values of a
list. -/
inductive Frame where
  | object (before after : List Member)
  | list (before : List Saying)

def timeMember (s : String) : Member := ⟨"insert_time", .text s⟩

/-- A body in which a text stands for the time, with anything behind it. -/
inductive Frame.Spells (s : String) : Frame → Octets → Prop where
  | object {xs ys : List Member} {w rest : Octets} (hplain : createRecord.shape.Plain (xs ++ ys))
      (hw : SpellsObject (xs ++ timeMember s :: ys) w) : Spells s (.object xs ys) (w ++ rest)
  | list {cs : List Saying} {w rest : Octets} (hplain : ∀ c ∈ cs, c ≠ .anything)
      (hlength : cs.length = 4) (hw : SpellsList (cs ++ [.text s]) w) :
      Spells s (.list cs) (w ++ rest)

theorem plain_timeMember {s : String} {xs ys : List Member}
    (h : createRecord.shape.Plain (xs ++ ys)) :
    createRecord.shape.Plain (xs ++ timeMember s :: ys) := by
  intro x hx f hf hkey
  rcases List.mem_append.mp hx with hx | hx
  · exact h x (List.mem_append_left ys hx) f hf hkey
  · rcases List.mem_cons.mp hx with rfl | hx
    · rintro ⟨⟩
    · exact h x (List.mem_append_right xs hx) f hf hkey

theorem plain_of_plain_timeMember {s : String} {xs ys : List Member}
    (h : createRecord.shape.Plain (xs ++ timeMember s :: ys)) :
    createRecord.shape.Plain (xs ++ ys) := by
  intro x hx
  apply h x
  rcases List.mem_append.mp hx with hx | hx
  · exact List.mem_append_left _ hx
  · exact List.mem_append_right xs (List.mem_cons_of_mem _ hx)

/-- The field of the time is the only one with its key. -/
theorem kind_of_timeKey {f : Field} (hf : f ∈ createRecord.shape.fields)
    (hkey : f.key = "insert_time") : f.kind = .time ∧ f.fallback = none := by
  simp only [createRecord, List.mem_cons, List.not_mem_nil, or_false] at hf
  rcases hf with rfl | rfl | rfl | rfl | rfl
  · exact absurd hkey (by decide)
  · exact absurd hkey (by decide)
  · exact absurd hkey (by decide)
  · exact absurd hkey (by decide)
  · exact ⟨rfl, rfl⟩

theorem last_required : ∀ f ∈ createRecord.shape.fields.getLast?, f.fallback = none := by
  rintro f ⟨⟩
  rfl

/-! ## The time that is read -/

theorem time_of_taken {c : Saying} {v : Scalar} (h : Kind.time.taken? c = some v) :
    ∃ s t, c = .text s ∧ v = .time t ∧ Reader.read s.toList = .ok t := by
  cases c with
  | whole n => cases h
  | text s =>
    obtain ⟨t, ht, rfl⟩ := Option.map_eq_some_iff.mp h
    exact ⟨s, t, rfl, rfl, toOption_eq_some_iff.mp ht⟩
  | anything => cases h

theorem taken_time_eq {s s' : String} (h : Reader.read s.toList = Reader.read s'.toList) :
    Kind.time.taken? (.text s') = Kind.time.taken? (.text s) := by
  simp only [Kind.taken?, h]

variable {d : Draft} {v v' : Octets} {s s' : String} {frame : Frame}

/-- Among the members of a request there is one that says its time. -/
theorem timeMember_of_means {xs : List Member} {vs : List Scalar}
    (h : createRecord.shape.Means xs vs) (hd : createRecord.ofValues? vs = some d) :
    ∃ s, timeMember s ∈ xs ∧ Reader.read s.toList = .ok d.insertTime := by
  obtain rfl := createRecord_faithful.values_of_ofValues? vs d hd
  have hgives := (List.forall₂_iff_get.mp h.values).2 4 (by decide) (Nat.lt_succ_self 4)
  rcases hgives with ⟨x, hx, hkey, htaken⟩ | ⟨-, hfallback⟩
  · obtain ⟨s, t, hsaying, hvalue, hread⟩ := time_of_taken htaken
    obtain rfl := Scalar.time.inj hvalue
    refine ⟨s, ?_, hread⟩
    obtain ⟨key, saying⟩ := x
    obtain rfl : key = "insert_time" := hkey
    obtain rfl : saying = .text s := hsaying
    exact hx
  · cases hfallback

/-- The last value of a request says its time. -/
theorem time_of_takesAll {cs : List Saying} {vs : List Scalar}
    (h : TakesAll createRecord.shape.fields cs vs) (hd : createRecord.ofValues? vs = some d) :
    ∃ bs s, cs = bs ++ [.text s] ∧ bs.length = 4 ∧ (∀ b ∈ bs, b ≠ .anything) ∧
      Reader.read s.toList = .ok d.insertTime := by
  obtain rfl := createRecord_faithful.values_of_ofValues? vs d hd
  cases h with | cons h₁ h =>
  cases h with | cons h₂ h =>
  cases h with | cons h₃ h =>
  cases h with | cons h₄ h =>
  cases h with | cons h₅ h =>
  cases h with | nil =>
  obtain ⟨s, t, rfl, hvalue, hread⟩ := time_of_taken h₅
  obtain rfl := Scalar.time.inj hvalue
  refine ⟨_, s, (List.append_assoc [_, _, _, _] [] [_]).symm, rfl, ?_, hread⟩
  simp only [List.append_nil, List.mem_cons, List.not_mem_nil, or_false]
  rintro b (rfl | rfl | rfl | rfl)
  · exact Saying.ne_anything_of_taken h₁
  · exact Saying.ne_anything_of_taken h₂
  · exact Saying.ne_anything_of_taken h₃
  · exact Saying.ne_anything_of_taken h₄

theorem takesAll_of_framed {cs : List Saying} (hplain : ∀ c ∈ cs, c ≠ .anything)
    (hlength : cs.length = 4) {w rest t : Octets} (hw : SpellsList (cs ++ [.text s]) w)
    {vs : List Scalar} (h : createRecord.shape.read (w ++ rest) = .ok (vs, t)) :
    TakesAll createRecord.shape.fields (cs ++ [.text s]) vs := by
  apply Shape.takesAll_of_read hw _ _ h
  · intro c hc
    rcases List.mem_append.mp hc with hc | hc
    · exact hplain c hc
    · rw [List.mem_singleton.mp hc]
      rintro ⟨⟩
  · rw [List.length_append, hlength]
    rfl

/-- Every body of a request has a text for the time, and all else around it. -/
theorem exists_frame_of_read (h : createRecord.read v = .ok d) :
    ∃ frame s, Frame.Spells s frame v := by
  obtain ⟨rest, -, vs, hread, hd⟩ := Record.read_eq_ok_iff.mp h
  have hkeys := createRecord_faithful.regular.keys_nodup
  rcases Shape.document_of_read hkeys last_required hread with
    ⟨xs, w, hw, hplain, rfl⟩ | ⟨cs, w, hw, htaken, rfl⟩
  · obtain ⟨-, -, hmeans⟩ := Shape.found_of_read hkeys hw hread
    obtain ⟨s, hmem, -⟩ := timeMember_of_means (hmeans hplain) hd
    obtain ⟨before, after, rfl⟩ := List.append_of_mem hmem
    exact ⟨.object before after, s, .object (plain_of_plain_timeMember hplain) hw⟩
  · obtain ⟨bs, s, rfl, hlength, hplain, -⟩ := time_of_takesAll htaken hd
    exact ⟨.list bs, s, .list hplain hlength hw⟩

/-- The time of a request is what is read of the text for it. -/
theorem time_of_read (hv : frame.Spells s v) (h : createRecord.read v = .ok d) :
    Reader.read s.toList = .ok d.insertTime := by
  obtain ⟨rest, -, vs, hread, hd⟩ := Record.read_eq_ok_iff.mp h
  have hkeys := createRecord_faithful.regular.keys_nodup
  cases hv with
  | object hplain hw =>
    obtain ⟨honce, -, hmeans⟩ := Shape.found_of_read hkeys hw hread
    obtain ⟨s', hmem, htime⟩ := timeMember_of_means (hmeans (plain_timeMember hplain)) hd
    have hlast := honce (required "insert_time" .time) (by simp [createRecord])
    have hsame := eq_of_count_le_one hlast hmem (y := timeMember s) (by simp) rfl rfl
    obtain rfl := Saying.text.inj (congrArg Member.saying hsame)
    exact htime
  | list hplain hlength hw =>
    obtain ⟨bs, s', heq, hfour, -, htime⟩ :=
      time_of_takesAll (takesAll_of_framed hplain hlength hw hread) hd
    obtain ⟨-, hlast⟩ := List.append_inj heq (by rw [hlength, hfour])
    obtain rfl := Saying.text.inj (List.singleton_inj.mp hlast)
    exact htime

/-- Bodies that differ only in the text for the time, which is read alike, are read alike. -/
theorem read_of_read_eq (hv : frame.Spells s v) (hv' : frame.Spells s' v')
    (hsame : Reader.read s.toList = Reader.read s'.toList) (h : createRecord.read v = .ok d) :
    createRecord.read v' = .ok d := by
  obtain ⟨rest, -, vs, hread, hd⟩ := Record.read_eq_ok_iff.mp h
  have hkeys := createRecord_faithful.regular.keys_nodup
  cases hv with
  | @object xs ys _ _ hplain hw =>
    cases hv' with
    | @object _ _ w' rest' _ hw' =>
      obtain ⟨-, -, hmeans⟩ := Shape.found_of_read hkeys hw hread
      have hkey : (timeMember s').key = (timeMember s).key := rfl
      have hmeans' : createRecord.shape.Means (xs ++ timeMember s' :: ys) vs := by
        apply (hmeans (plain_timeMember hplain)).replace hkey
        intro f hf hkey
        rw [(kind_of_timeKey hf hkey.symm).1]
        exact taken_time_eq hsame
      have hread' := Shape.read_spelled hkeys hw' hmeans' rest'
      exact Record.read_eq_ok_iff.mpr ⟨rest', trivial, vs, hread', hd⟩
  | @list cs _ _ hplain hlength hw =>
    cases hv' with
    | @list _ w' rest' _ _ hw' =>
      have htaken := takesAll_of_framed hplain hlength hw hread
      have htaken' : TakesAll createRecord.shape.fields (cs ++ [.text s']) vs := by
        apply htaken.replace
        intro f hf
        rw [hlength] at hf
        obtain rfl := Option.some.inj hf
        exact taken_time_eq hsame
      have hread' := Shape.read_listed hw' htaken' rest'
      exact Record.read_eq_ok_iff.mpr ⟨rest', trivial, vs, hread', hd⟩

/-! ## Written forms with another time -/

/-- The written form of a draft, but with any text for the time. -/
def Draft.writtenWith (d : Draft) (s : String) : Octets :=
  ofChars (createRecord.shape.written
    [.whole d.mailing.val, .text d.email, .text d.title, .text d.content, .text s])

def Draft.around (d : Draft) : Frame :=
  .object (writtenFields createRecord.shape.fields
    [.whole d.mailing.val, .text d.email, .text d.title, .text d.content]) []

theorem Draft.spells_writtenWith (d : Draft) (s : String) : d.around.Spells s (d.writtenWith s) := by
  have hspells := createRecord.shape.spellsObject_written
    [.whole d.mailing.val, .text d.email, .text d.title, .text d.content, .text s]
  rw [← List.append_nil (d.writtenWith s)]
  apply Frame.Spells.object _ hspells
  intro x hx f _ _
  simp only [writtenFields, createRecord, List.zipWith_cons_cons, List.zipWith_nil_right,
    List.append_nil, List.mem_cons, List.not_mem_nil, or_false] at hx
  rcases hx with rfl | rfl | rfl | rfl <;> rintro ⟨⟩

theorem length_le_flatMap_writtenChar (s : List Char) :
    s.length ≤ (s.flatMap writtenChar).length := by
  induction s with
  | nil => exact Nat.le_refl 0
  | cons c s ih =>
    have hc : 0 < (writtenChar c).length := by
      unfold writtenChar
      split
      all_goals first
        | exact Nat.succ_pos _
        | split <;> exact Nat.succ_pos _
    rw [List.flatMap_cons, List.length_append, List.length_cons]
    omega

theorem Draft.length_le_writtenWith (d : Draft) (s : String) :
    s.toList.length ≤ (d.writtenWith s).length := by
  have hchars := length_le_flatMap_writtenChar s.toList
  apply Nat.le_trans _ (length_le_ofChars _)
  simp only [Shape.written, createRecord, writtenObject, List.zipWith_cons_cons,
    List.zipWith_nil_right, writtenMembers, writtenMember, Scalar.written, writtenText,
    List.length_append, List.length_cons]
  omega

/-- A draft is read of its written form, with any text that is read as its time. -/
theorem Draft.read_writtenWith (h : d.mailing.IsInt64)
    (hs : Reader.read s.toList = .ok d.insertTime) : createRecord.read (d.writtenWith s) = .ok d := by
  have htime : Scalar.written (.text (String.ofList d.insertTime.written)) =
      Scalar.written (.time d.insertTime) := by
    rw [writtenText_time, Scalar.written, String.toList_ofList]
  have hwritten : d.writtenWith (String.ofList d.insertTime.written) =
      ofChars (createRecord.written d) := by
    simp only [writtenWith, Record.written, Shape.written, createRecord, List.zipWith_cons_cons,
      htime]
  have hread := createRecord_faithful.readEntire_written (createRecord_fits h)
  obtain ⟨rest, -, hreads⟩ := Record.readEntire_eq_ok_iff.mp hread
  rw [← hwritten] at hreads
  have hsame : Reader.read (String.ofList d.insertTime.written).toList = Reader.read s.toList := by
    rw [String.toList_ofList, read_written, hs]
  exact read_of_read_eq (d.spells_writtenWith _) (d.spells_writtenWith s) hsame
    (Record.read_eq_ok_iff.mpr ⟨rest, trivial, hreads⟩)

theorem Draft.read_writtenWith_ne (d d' : Draft) {p : Time.Reader.Problem}
    (hs : Reader.read s.toList = .error p) : createRecord.read (d.writtenWith s) ≠ .ok d' := by
  intro hread
  have htime := time_of_read (d.spells_writtenWith s) hread
  rw [hs] at htime
  cases htime

end MailDispatch.Mailing
