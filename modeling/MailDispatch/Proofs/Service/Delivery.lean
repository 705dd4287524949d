import MailDispatch.Proofs.Service.Purging

/-! # What sending leaves

The entries of a mailing are delivered and taken out one by one. However that ends, mail
went out for the first so many of them, in their order; and where it ends with a value, for
all of them.
-/
namespace MailDispatch
open Store Mailing Work

namespace Store.Tables

/-- The mail for an entry, to the address of its customer. -/
def mail? (t : Tables) (e : Entry) : Option Mail :=
  (t.customers.find? fun c => c.id == e.customer).map fun c => ⟨c.email, e.title, e.content⟩

/-- What went out in between is the mail for some entries, in their order. -/
def Delivers (t : Tables) (es : List Entry) (out out' : List Mail) : Prop :=
  ∃ mails, out' = out ++ mails ∧ mails.map some = es.map t.mail?

variable {t : Tables} {out out' out'' : List Mail} {es fs : List Entry}

theorem delivers_nil (t : Tables) (out : List Mail) : t.Delivers [] out out :=
  ⟨[], by rw [List.append_nil], rfl⟩

theorem Delivers.append (h : t.Delivers es out out') (k : t.Delivers fs out' out'') :
    t.Delivers (es ++ fs) out out'' := by
  obtain ⟨mails, rfl, hmails⟩ := h
  obtain ⟨more, rfl, hmore⟩ := k
  exact ⟨mails ++ more, List.append_assoc .., by rw [List.map_append, hmails, hmore, List.map_append]⟩

theorem delivers_singleton {e : Entry} {m : Mail} (h : t.mail? e = some m) (out : List Mail) :
    t.Delivers [e] out (out ++ [m]) :=
  ⟨[m], rfl, by rw [List.map_singleton, List.map_singleton, h]⟩

/-- An entry is addressed to its customer as long as that one is stored. -/
theorem mail?_of_perform {t : Tables} {e : Entry} {c : Customer}
    (h : (t.perform (.customerById e.customer)).1 = .ok c) :
    t.mail? e = some ⟨c.email, e.title, e.content⟩ := by
  have hfound : (t.customers.filter fun d => d.id == e.customer) = [c] := by
    simp only [perform, exactlyOne] at h
    split at h
    · cases h
    · next d hd =>
      obtain rfl := Except.ok.inj h
      exact hd
    · cases h
  rw [mail?, ← List.head?_filter, hfound]
  rfl

/-- The customer of a stored entry is found. -/
theorem Sound.perform_customerById (h : t.Sound) {e : Entry} (he : e ∈ t.entries) :
    ∃ c, t.perform (.customerById e.customer) = (.ok c, t) ∧
      t.mail? e = some ⟨c.email, e.title, e.content⟩ := by
  obtain ⟨c, hc, hid⟩ := h.owned e he
  have hfound : (t.customers.filter fun d => d.id == e.customer) = [c] := by
    obtain ⟨d, hd⟩ := List.length_eq_one_iff.mp (length_filter_eq_one h.customer_ids hc)
    have hmem : c ∈ t.customers.filter fun d => d.id == c.id :=
      List.mem_filter.mpr ⟨hc, BEq.rfl⟩
    rw [hd, List.mem_singleton] at hmem
    rw [← hid, hd, hmem]
  have hanswer : t.perform (.customerById e.customer) = (.ok c, t) := by
    rw [Tables.perform, hfound]
    rfl
  exact ⟨c, hanswer, mail?_of_perform (congrArg Prod.fst hanswer)⟩

end Store.Tables

namespace Service
open Store.Tables

variable {t : Tables} {out : List Mail}

/-- How work ends that delivers entries: with a value, when all are delivered and taken out, or
within some first part of them. -/
def Delivering (t : Tables) (es : List Entry) (out : List Mail) : Post Failure Unit
  | .value _, u, out' => u = t.without es ∧ t.Delivers es out out'
  | .error f, _, out' => f.Internal ∧ ∃ fs, fs <+: es ∧ t.Delivers fs out out'
  | .crash _, _, out' => ∃ fs, fs <+: es ∧ t.Delivers fs out out'

theorem delivering_sendEntry (e : Entry) :
    (sendEntry carrier e).Ensures (Delivering t [e] out) t out := by
  have hnothing : ∃ fs, fs <+: [e] ∧ t.Delivers fs out out :=
    ⟨[], List.nil_prefix, t.delivers_nil out⟩
  refine ensures_bind_iff.mpr (ensures_asking_iff.mpr
    ⟨?_, fun p => ⟨trivial, hnothing⟩, fun _ => hnothing⟩)
  cases hc : (t.perform (.customerById e.customer)).1 with
  | error p => exact ⟨trivial, hnothing⟩
  | ok c =>
    have hsent := delivers_singleton (mail?_of_perform hc) out
    have hall : ∃ fs, fs <+: [e] ∧ t.Delivers fs out (out ++ [⟨c.email, e.title, e.content⟩]) :=
      ⟨[e], List.prefix_rfl, hsent⟩
    -- The mail is accepted, refused or crashes; only accepted mail went out.
    refine ensures_bind_iff.mpr (ensures_mapError_iff.mpr
      ⟨?_, fun p => ⟨trivial, hnothing⟩, fun _ => hnothing⟩)
    refine (quietly_asking _ (.deleteEntry e.id)).mono ?_
    rintro (_ | f | _) u out' h
    · obtain ⟨⟨-, rfl⟩, rfl⟩ := h
      exact ⟨by simp [perform, deleteEntry, without], hsent⟩
    · obtain ⟨hf, rfl⟩ := h
      exact ⟨hf, hall⟩
    · obtain rfl := h
      exact hall

theorem delivering_each (es : List Entry) (t : Tables) (out : List Mail) :
    (each (sendEntry carrier) es).Ensures (Delivering t es out) t out := by
  induction es generalizing t out with
  | nil => exact ⟨t.without_nil.symm, t.delivers_nil out⟩
  | cons e es ih =>
    refine ensures_bind_iff.mpr ((delivering_sendEntry e).mono ?_)
    rintro (_ | f | _) u out' h
    · obtain ⟨rfl, hsent⟩ := h
      have hlater : ∀ {out''}, (∃ fs, fs <+: es ∧ (t.without [e]).Delivers fs out' out'') →
          ∃ fs, fs <+: e :: es ∧ t.Delivers fs out out'' := by
        rintro out'' ⟨fs, hfs, hmore⟩
        exact ⟨e :: fs, (List.prefix_cons_inj e).mpr hfs, hsent.append hmore⟩
      refine (ih (t.without [e]) out').mono ?_
      rintro (_ | f | _) v out'' k
      · obtain ⟨rfl, hmore⟩ := k
        exact ⟨by rw [without_append, List.singleton_append], hsent.append hmore⟩
      · exact ⟨k.1, hlater k.2⟩
      · exact hlater k
    · obtain ⟨hf, fs, hfs, hsent⟩ := h
      exact ⟨hf, fs, hfs.trans (List.prefix_append [e] es), hsent⟩
    · obtain ⟨fs, hfs, hsent⟩ := h
      exact ⟨fs, hfs.trans (List.prefix_append [e] es), hsent⟩

/-- How work ends that sends a mailing with the given entries. -/
def Sending (t : Tables) (es : List Entry) (out : List Mail) : Post Failure Nat
  | .value n, u, out' => n = es.length ∧ u = t.without es ∧ t.Delivers es out out'
  | .error f, _, out' =>
    (∃ message, f = .rejected (.notFound message)) ∧ es = [] ∧ out' = out ∨
      f.Internal ∧ ∃ fs, fs <+: es ∧ t.Delivers fs out out'
  | .crash _, _, out' => ∃ fs, fs <+: es ∧ t.Delivers fs out out'

theorem sending_sendMailing (m : MailingId) :
    (sendMailing carrier m).Ensures (Sending t (t.entries.filter fun e => e.mailing == m) out)
      t out := by
  refine ensures_bind_iff.mpr ((quietly_asking _ (.entriesOfMailing m)).mono ?_)
  have hnothing : ∀ es : List Entry, ∃ fs, fs <+: es ∧ t.Delivers fs out out :=
    fun es => ⟨[], List.nil_prefix, t.delivers_nil out⟩
  rintro (found | f | _) u out' h
  · obtain ⟨⟨hfound, rfl⟩, rfl⟩ := h
    obtain rfl := Except.ok.inj hfound
    cases hes : u.entries.filter fun e => e.mailing == m with
    | nil => exact .inl ⟨⟨_, rfl⟩, rfl, rfl⟩
    | cons e es =>
      refine ensures_bind_iff.mpr ((delivering_each (e :: es) u out').mono ?_)
      rintro (_ | f | _) v out'' k
      · exact ⟨rfl, k⟩
      · exact .inr k
      · exact k
  · obtain ⟨hf, rfl⟩ := h
    exact .inr ⟨hf, hnothing _⟩
  · obtain rfl := h
    exact hnothing _

/-- How work ends that removes an entry. -/
theorem ensures_remove (id : MailingEntryId) (t : Tables) (out : List Mail) :
    (remove id).Ensures (fun o u out' =>
      (∀ a, o = .value a → u = (t.deleteEntry id).2) ∧ out' = out) t out := by
  refine ⟨?_, ?_, fun _ => ⟨nofun, rfl⟩⟩
  · cases (t.perform (.deleteEntry id)).1 with
    | ok a => exact ⟨fun _ _ => rfl, rfl⟩
    | error p =>
      dsimp only
      split <;> exact ⟨nofun, rfl⟩
  · intro p
    dsimp only
    split <;> exact ⟨nofun, rfl⟩

end Service
end MailDispatch
