import MailDispatch.Proofs.Service.Insertion

/-! # What the creation of an entry changes

While nothing goes wrong, creating an entry either adds one row for it, and one for its customer if
the email is new, or it changes nothing. A customer may be stored before the look for a duplicate;
that look cannot fail then, because entries belong to customers that are stored already.
-/
namespace MailDispatch
open Store Mailing Work

namespace Store.Tables

variable {t u : Tables} {d : Draft} {c : Customer} {e : Entry}

/-- An entry like the draft is stored for the customer with its email. -/
def Holds (t : Tables) (d : Draft) : Prop :=
  ∃ c ∈ t.customers, c.email = d.email ∧
    ∃ e ∈ t.entries, e.toNewEntry =
      { customer := c.id
        mailing := d.mailing
        title := d.title
        content := d.content
        insertTime := d.insertTime }

/-- One entry was added for a draft, and a customer where its email was not known. -/
structure Enters (t : Tables) (d : Draft) (e : Entry) (u : Tables) : Prop where
  entries : u.entries = t.entries ++ [e]
  mailing : e.mailing = d.mailing
  title : e.title = d.title
  content : e.content = d.content
  insertTime : e.insertTime = d.insertTime
  fresh : e.id ∉ t.entries.map Entry.id
  given : (t.lastEntry : Int) < e.id.val
  counted : e.id.val = u.lastEntry
  known : ∀ c ∈ t.customers, c.email = d.email →
    e.customer = c.id ∧ u.customers = t.customers ∧ u.lastCustomer = t.lastCustomer
  unknown : (∀ c ∈ t.customers, c.email ≠ d.email) →
    ∃ c : Customer, u.customers = t.customers ++ [c] ∧ c.email = d.email ∧ e.customer = c.id ∧
      c.id ∉ t.customers.map Customer.id ∧ (t.lastCustomer : Int) < c.id.val ∧
      c.id.val = u.lastCustomer

theorem insertCustomer_of_mem (hc : c ∈ t.customers) : (t.insertCustomer c.email).2 = t := by
  have htaken : (t.customers.any fun d => d.email == c.email) = true :=
    List.any_eq_true.mpr ⟨c, hc, beq_self_eq_true _⟩
  simp only [Tables.insertCustomer, htaken, if_true]

theorem insertCustomer_of_unknown {email : String} (h : ∀ c ∈ t.customers, c.email ≠ email) :
    (t.insertCustomer email).2 =
      { t with
        customers := t.customers ++ [⟨⟨(t.lastCustomer + 1 : Nat)⟩, email⟩]
        lastCustomer := t.lastCustomer + 1 } := by
  have hfree : (t.customers.any fun c => c.email == email) = false := by
    rw [List.any_eq_false]
    simpa using h
  simp [Tables.insertCustomer, hfree]

theorem entries_insertCustomer (t : Tables) (email : String) :
    (t.insertCustomer email).2.entries = t.entries := by
  unfold Tables.insertCustomer
  split <;> rfl

theorem lastEntry_insertCustomer (t : Tables) (email : String) :
    (t.insertCustomer email).2.lastEntry = t.lastEntry := by
  unfold Tables.insertCustomer
  split <;> rfl

/-- Whether an entry is stored does not hang on the customer who was just created for it: no
entry belongs to that customer yet. -/
theorem Sound.holds_iff (h : t.Sound) (hc : c ∈ (t.insertCustomer d.email).2.customers)
    (hemail : c.email = d.email) :
    t.Holds d ↔ ∃ e ∈ t.entries, e.toNewEntry = d.entryFor c.id := by
  have hsound := h.insertCustomer d.email
  have hkept : ∀ c ∈ t.customers, c ∈ (t.insertCustomer d.email).2.customers := by
    intro c' hc'
    unfold Tables.insertCustomer
    split
    · exact hc'
    · exact List.mem_append_left _ hc'
  constructor
  · rintro ⟨c', hc', hemail', hentry⟩
    rwa [eq_of_key_eq hsound.emails (hkept c' hc') hc (hemail'.trans hemail.symm)] at hentry
  · rintro ⟨e, he, hsame⟩
    obtain ⟨c', hc', hid⟩ := h.owned e he
    have howner : e.customer = c.id := congrArg NewEntry.customer hsame
    obtain rfl : c' = c := hsound.customer_unique hc (hkept c' hc') (hid.trans howner)
    exact ⟨c', hc', hemail, e, he, hsame⟩

theorem Sound.entry_not_given (h : t.Sound) {id : MailingEntryId}
    (hid : (t.lastEntry : Int) < id.val) : id ∉ t.entries.map Entry.id := by
  intro hmem
  obtain ⟨e, he, rfl⟩ := List.mem_map.mp hmem
  have hle := (h.entry_given e he).2
  omega

theorem Sound.customer_not_given (h : t.Sound) {id : CustomerId}
    (hid : (t.lastCustomer : Int) < id.val) : id ∉ t.customers.map Customer.id := by
  intro hmem
  obtain ⟨c, hc, rfl⟩ := List.mem_map.mp hmem
  have hle := (h.customer_given c hc).2
  omega

/-- An entry that is inserted for the customer found or created is entered. -/
theorem Sound.enters (h : t.Sound) (hc : c ∈ (t.insertCustomer d.email).2.customers)
    (hemail : c.email = d.email) :
    t.Enters d { d.entryFor c.id with id := ⟨(t.lastEntry + 1 : Nat)⟩ }
      ((t.insertCustomer d.email).2.insertEntry (d.entryFor c.id)).2 := by
  have hgiven : (t.lastEntry : Int) < (t.lastEntry + 1 : Nat) := by omega
  rw [insertEntry_of_owned hc rfl, lastEntry_insertCustomer]
  refine ⟨?_, rfl, rfl, rfl, rfl, h.entry_not_given hgiven, hgiven, rfl, ?_, ?_⟩
  · exact congrArg (· ++ _) (t.entries_insertCustomer d.email)
  · intro c' hc' hemail'
    have hsame : (t.insertCustomer d.email).2 = t := by
      rw [← hemail']
      exact insertCustomer_of_mem hc'
    rw [hsame] at hc ⊢
    obtain rfl : c' = c := eq_of_key_eq h.emails hc' hc (hemail'.trans hemail.symm)
    exact ⟨rfl, rfl, rfl⟩
  · intro hunknown
    have hnew : (t.lastCustomer : Int) < (t.lastCustomer + 1 : Nat) := by omega
    rw [insertCustomer_of_unknown hunknown] at hc ⊢
    refine ⟨⟨⟨(t.lastCustomer + 1 : Nat)⟩, d.email⟩, rfl, rfl, ?_, h.customer_not_given hnew,
      hnew, rfl⟩
    -- The customer with the email is the new one, since no old one has it.
    rcases List.mem_append.mp hc with hold | hadded
    · exact absurd hemail (hunknown c hold)
    · rw [List.mem_singleton.mp hadded]
      rfl

end Store.Tables

namespace Service

variable {t : Tables} {d : Draft}

theorem exists_message_of_check {r : Rejection} (h : d.check = .error r) :
    ∃ m, r = .badInput m ∧ m ≠ "customer with this email already exists" := by
  unfold Draft.check at h
  split at h
  · cases h
  · obtain rfl := Except.error.inj h
    refine ⟨_, rfl, ?_⟩
    intro hsame
    have hfirst := congrArg (fun m : String => m.toList.head?) hsame
    simp at hfirst

/-- What the creation of an entry comes to while nothing goes wrong. -/
theorem eval_create (h : t.Sound) (d : Draft) (out : List Mail) :
    (∀ r, d.check = .error r → (create d).eval t out = (.error (.rejected r), t, out)) ∧
    (d.check = .ok () → t.Holds d → (create d).eval t out =
      (.error (.rejected (.badInput "this mailing entry already exists")), t, out)) ∧
    (d.check = .ok () → ¬ t.Holds d →
      ∃ e u, (create d).eval t out = (.value e, u, out) ∧ t.Enters d e u) := by
  refine ⟨?_, ?_, ?_⟩
  · intro r hr
    unfold create
    rw [hr]
    rfl
  all_goals
    intro hcheck
    obtain ⟨c, hc, hemail, hcustomer⟩ := eval_customerFor h d.email out
    obtain ⟨hrefused, hstored⟩ := eval_insertion (n := d.entryFor c.id) hc rfl out
    rw [Tables.entries_insertCustomer] at hrefused hstored
    rw [create_of_passes (by rw [Draft.passes, hcheck]; rfl), eval_bind, hcustomer,
      h.holds_iff hc hemail]
    dsimp only
  · intro hdup
    -- The customer was found, so nothing was created for the refused draft.
    obtain ⟨c', hc', hemail', -⟩ := (h.holds_iff hc hemail).mpr hdup
    have hsame : (t.insertCustomer d.email).2 = t := by
      rw [← hemail']
      exact Tables.insertCustomer_of_mem hc'
    rw [hrefused hdup, hsame]
  · intro hnew
    refine ⟨_, _, hstored fun e he hsame => hnew ⟨e, he, hsame⟩, ?_⟩
    rw [Tables.lastEntry_insertCustomer]
    exact h.enters hc hemail

/-! ## On a backend -/

variable {σ : Type} {b : Backend σ} {scene : σ → Scene} {calm : σ → Prop}

/-- On a calm backend creating an entry succeeds if and only if the draft passes its check and
nothing like it is stored. Then it adds the entry, and its customer if the email is new. Otherwise it
is refused as bad input, with the working tables as they were. -/
theorem creation_enters_or_changes_nothing (hb : b.Faithful scene) (hcalm : b.Calm scene calm)
    {s : σ} (hs : calm s) {token : Token} (opened : (scene s).store.opened = some (token, t))
    (sound : t.Sound) (operation : Option Log.Operation) (d : Draft) :
    let ran := (create d).run b operation token s
    ∃ u, (scene ran.2).store = { (scene s).store with opened := some (token, u) } ∧
      ((∃ e, ran.1 = .value e) ↔ d.check = .ok () ∧ ¬ t.Holds d) ∧
      (∀ e, ran.1 = .value e → t.Enters d e u) ∧
      (∀ f, ran.1 = .error f → u = t ∧ ∃ m, f = .rejected (.badInput m) ∧
        m ≠ "customer with this email already exists") ∧
      ∀ x, ran.1 ≠ .crash x := by
  intro ran
  obtain ⟨houtcome, hscene⟩ := (hcalm.run operation token (create d) hs).1.run hb opened
  obtain ⟨hinvalid, hstored, hnew⟩ := eval_create sound d (scene s).outbox
  refine ⟨_, congrArg Scene.store hscene, ?_⟩
  dsimp only [ran]
  rw [houtcome]
  -- How it ends is settled by the check, and after that by what is stored.
  cases hcheck : d.check with
  | error r =>
    obtain ⟨m, rfl, hm⟩ := exists_message_of_check hcheck
    rw [hinvalid _ hcheck]
    refine ⟨by simp, by simp, ?_, by simp⟩
    rintro f ⟨⟩
    exact ⟨rfl, m, rfl, hm⟩
  | ok checked =>
    by_cases hold : t.Holds d
    · rw [hstored hcheck hold]
      refine ⟨by simp [hold], by simp, ?_, by simp⟩
      rintro f ⟨⟩
      exact ⟨rfl, _, rfl, by decide⟩
    · obtain ⟨e, u, heval, henters⟩ := hnew hcheck hold
      rw [heval]
      refine ⟨by simp [hold], ?_, by simp, by simp⟩
      rintro e ⟨⟩
      exact henters

/-- A draft from an unknown email, in a transaction that has stored another entry before. -/
theorem unknown_customer_is_entered_with_entry :
    let anna : Draft := ⟨⟨7⟩, "anna@example.com", "Hello", "World", .latest⟩
    let ben : Draft := { anna with email := "ben@example.com" }
    let t : Tables :=
      ⟨[⟨⟨1⟩, "anna@example.com"⟩], [⟨⟨⟨1⟩, ⟨7⟩, "Hello", "World", .latest⟩, ⟨3⟩⟩], 4, 5⟩
    let r : Rehearsal := { store := ⟨.empty, some (0, t), 1⟩ }
    let e : Entry := ⟨⟨⟨5⟩, ⟨7⟩, "Hello", "World", .latest⟩, ⟨6⟩⟩
    r.Undisturbed ∧ r.store.opened = some (0, t) ∧ t.Sound ∧
      ((create ben).run Rehearsal.backend none 0 r).1 = .value e ∧
      ∃ u, ((create ben).run Rehearsal.backend none 0 r).2.store.opened = some (0, u) ∧
        t.Enters ben e u := by
  intro anna ben t r e
  have hcalm : r.Undisturbed := ⟨rfl, rfl, fun _ _ _ _ => rfl⟩
  have hsound : t.Sound := ⟨by decide, by decide, by decide, by decide, by decide, by decide⟩
  have hopened : (Rehearsal.scene r).store.opened = some (0, t) := rfl
  have hvalue : ((create ben).run Rehearsal.backend none 0 r).1 = .value e := by decide +kernel
  obtain ⟨u, hstore, -, henters, -⟩ := creation_enters_or_changes_nothing Rehearsal.faithful
    Rehearsal.calm hcalm hopened hsound none ben
  exact ⟨hcalm, hopened, hsound, hvalue, u, congrArg Locked.opened hstore, henters e hvalue⟩

end Service
end MailDispatch
