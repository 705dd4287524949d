import Mathlib.Data.Finset.Card
import MailDispatch.Proofs.Service.Tidy
import MailDispatch.Proofs.Store.Succession

/-! # Creation as insertion into a set

An entry refers to its customer by an identifier that the store has made up. To a client it is what
was submitted, with an email. Seen that way the entries of a store are a set, and so are its
customers; creating entries inserts into both, and the order in which that is done plays no part.
-/
namespace MailDispatch
open Store Mailing Work

namespace Store.Tables

variable {t u : Tables} {e : Entry} {d : Draft}

/-- An entry as it was submitted. -/
def draft? (t : Tables) (e : Entry) : Option Draft :=
  (t.customers.find? fun c => c.id == e.customer).map fun c =>
    ⟨e.mailing, c.email, e.title, e.content, e.insertTime⟩

def drafts (t : Tables) : Finset Draft := (t.entries.filterMap t.draft?).toFinset

def emails (t : Tables) : Finset String := (t.customers.map Customer.email).toFinset

theorem mem_drafts : d ∈ t.drafts ↔ ∃ e ∈ t.entries, t.draft? e = some d := by
  simp [drafts]

theorem mem_emails {email : String} : email ∈ t.emails ↔ ∃ c ∈ t.customers, c.email = email := by
  simp [emails]

theorem Sound.find?_customer (h : t.Sound) {c : Customer} (hc : c ∈ t.customers) :
    (t.customers.find? fun d => d.id == c.id) = some c := by
  obtain ⟨d, hd⟩ : ∃ d, (t.customers.find? fun d => d.id == c.id) = some d := by
    rw [← Option.isSome_iff_exists, List.find?_isSome]
    exact ⟨c, hc, beq_self_eq_true _⟩
  have hid : d.id = c.id := by simpa using List.find?_some hd
  rw [hd, h.customer_unique hc (List.mem_of_find?_eq_some hd) hid]

theorem Sound.draft?_eq_some_iff (h : t.Sound) :
    t.draft? e = some d ↔
      ∃ c ∈ t.customers, c.email = d.email ∧ e.toNewEntry = d.entryFor c.id := by
  constructor
  · intro hdraft
    obtain ⟨c, hfound, rfl⟩ := Option.map_eq_some_iff.mp hdraft
    have hid : c.id = e.customer := by simpa using List.find?_some hfound
    refine ⟨c, List.mem_of_find?_eq_some hfound, rfl, ?_⟩
    rw [Draft.entryFor, hid]
  · rintro ⟨c, hc, hemail, hentry⟩
    have hcustomer : e.customer = c.id := congrArg NewEntry.customer hentry
    have hmailing : e.mailing = d.mailing := congrArg NewEntry.mailing hentry
    have htitle : e.title = d.title := congrArg NewEntry.title hentry
    have hcontent : e.content = d.content := congrArg NewEntry.content hentry
    have htime : e.insertTime = d.insertTime := congrArg NewEntry.insertTime hentry
    rw [draft?, hcustomer, h.find?_customer hc, Option.map_some, hemail, hmailing, htitle, hcontent,
      htime]

theorem Distinct.insertCustomer (h : t.Distinct) (email : String) :
    (t.insertCustomer email).2.Distinct := by
  unfold Tables.insertCustomer
  split <;> exact h

theorem Sound.existsUnique_entry (h : t.Sound) (distinct : t.Distinct) (hd : d ∈ t.drafts) :
    ∃! e, e ∈ t.entries ∧ t.draft? e = some d := by
  obtain ⟨e, he, hdraft⟩ := mem_drafts.mp hd
  refine ⟨e, ⟨he, hdraft⟩, ?_⟩
  rintro f ⟨hf, hdraft'⟩
  obtain ⟨c, hc, hemail, hentry⟩ := h.draft?_eq_some_iff.mp hdraft
  obtain ⟨c', hc', hemail', hentry'⟩ := h.draft?_eq_some_iff.mp hdraft'
  obtain rfl : c' = c := eq_of_key_eq h.emails hc' hc (hemail'.trans hemail.symm)
  exact eq_of_key_eq distinct hf he (hentry'.trans hentry.symm)

theorem Sound.existsUnique_customer (h : t.Sound) {email : String} (hemail : email ∈ t.emails) :
    ∃! c, c ∈ t.customers ∧ c.email = email := by
  obtain ⟨c, hc, hemail⟩ := mem_emails.mp hemail
  refine ⟨c, ⟨hc, hemail⟩, ?_⟩
  rintro c' ⟨hc', hemail'⟩
  exact eq_of_key_eq h.emails hc' hc (hemail'.trans hemail.symm)

theorem email_mem_emails (t : Tables) (hd : d ∈ t.drafts) : d.email ∈ t.emails := by
  obtain ⟨e, -, hdraft⟩ := mem_drafts.mp hd
  obtain ⟨c, hfound, rfl⟩ := Option.map_eq_some_iff.mp hdraft
  exact mem_emails.mpr ⟨c, List.mem_of_find?_eq_some hfound, rfl⟩

/-! ## Rows that are added -/

/-- A new customer has no entry yet, so what the entries are stays the same. -/
theorem Sound.drafts_insertCustomer (h : t.Sound) (email : String) :
    (t.insertCustomer email).2.drafts = t.drafts := by
  unfold Tables.insertCustomer
  split
  · rfl
  · refine congrArg List.toFinset (List.filterMap_congr fun e he => ?_)
    obtain ⟨c, hc, hid⟩ := h.owned e he
    have hfound : (t.customers.find? fun c => c.id == e.customer) = some c := by
      rw [← hid]
      exact h.find?_customer hc
    simp only [draft?, List.find?_append, hfound, Option.some_or]

theorem emails_insertCustomer (t : Tables) (email : String) :
    (t.insertCustomer email).2.emails = insert email t.emails := by
  unfold Tables.insertCustomer
  split
  · next htaken =>
    obtain ⟨c, hc, hemail⟩ := List.any_eq_true.mp htaken
    exact (Finset.insert_eq_of_mem (mem_emails.mpr ⟨c, hc, eq_of_beq hemail⟩)).symm
  · ext other
    simp [emails]

theorem insertEntry_of_owned {n : NewEntry} {c : Customer} (hc : c ∈ t.customers)
    (hn : n.customer = c.id) :
    t.insertEntry n =
      (.ok { n with id := ⟨(t.lastEntry + 1 : Nat)⟩ },
        { t with
          entries := t.entries ++ [{ n with id := ⟨(t.lastEntry + 1 : Nat)⟩ }]
          lastEntry := t.lastEntry + 1 }) := by
  have howned : (t.customers.any fun c => c.id == n.customer) = true :=
    List.any_eq_true.mpr ⟨c, hc, by rw [hn]; exact beq_self_eq_true _⟩
  simp only [Tables.insertEntry, howned, if_true]

theorem Sound.drafts_insertEntry (h : t.Sound) {c : Customer} (hc : c ∈ t.customers)
    (hemail : c.email = d.email) :
    (t.insertEntry (d.entryFor c.id)).2.drafts = insert d t.drafts := by
  have hnew : t.draft? { d.entryFor c.id with id := ⟨(t.lastEntry + 1 : Nat)⟩ } = some d :=
    h.draft?_eq_some_iff.mpr ⟨c, hc, hemail, rfl⟩
  rw [insertEntry_of_owned hc rfl]
  ext other
  simp only [mem_drafts, List.mem_append, List.mem_singleton, Finset.mem_insert]
  constructor
  · rintro ⟨e, he | rfl, hdraft⟩
    · exact .inr ⟨e, he, hdraft⟩
    · exact .inl (Option.some.inj (hdraft.symm.trans hnew))
  · rintro (rfl | ⟨e, he, hdraft⟩)
    · exact ⟨_, .inr rfl, hnew⟩
    · exact ⟨e, .inl he, hdraft⟩

/-- Entries of one customer are the same if and only if they were submitted the same. -/
theorem Sound.mem_drafts_iff (h : t.Sound) {c : Customer} (hc : c ∈ t.customers)
    (hemail : c.email = d.email) :
    d ∈ t.drafts ↔ ∃ e ∈ t.entries, e.toNewEntry = d.entryFor c.id := by
  rw [mem_drafts]
  refine exists_congr fun e => and_congr_right fun _ => h.draft?_eq_some_iff.trans ?_
  constructor
  · rintro ⟨c', hc', hemail', hentry⟩
    rwa [eq_of_key_eq h.emails hc' hc (hemail'.trans hemail.symm)] at hentry
  · exact fun hentry => ⟨c, hc, hemail, hentry⟩

end Store.Tables

/-! ## What creation comes to -/

namespace Service

variable {t : Tables} {out : List Mail}

/-- The customer with an email is found, or created where there is none. -/
theorem eval_customerFor (h : t.Sound) (email : String) (out : List Mail) :
    ∃ c ∈ (t.insertCustomer email).2.customers, c.email = email ∧
      (customerFor email).eval t out = (.value c, (t.insertCustomer email).2, out) := by
  cases htaken : t.customers.any fun c => c.email == email with
  | true =>
    obtain ⟨c, hc, hemail⟩ := List.any_eq_true.mp htaken
    obtain rfl := eq_of_beq hemail
    have hfound : t.perform (.customerByEmail c.email) = (.ok c, t) := by
      simp only [Tables.perform, h.filter_email hc, exactlyOne]
    simp only [Tables.insertCustomer, htaken, if_true]
    refine ⟨c, hc, rfl, ?_⟩
    simp only [customerFor, eval, hfound]
  | false =>
    have hnone : t.perform (.customerByEmail email) =
        (.error (.noRow "find customer by email"), t) := by
      have hfilter : (t.customers.filter fun c => c.email == email) = [] :=
        List.filter_eq_nil_iff.mpr (List.any_eq_false.mp htaken)
      simp only [Tables.perform, hfilter, exactlyOne]
    have hinserted : t.insertCustomer email =
        (.ok ⟨⟨(t.lastCustomer + 1 : Nat)⟩, email⟩, (t.insertCustomer email).2) := by
      simp [Tables.insertCustomer, htaken]
    have hcreated : (createCustomer email).eval t out =
        (.value ⟨⟨(t.lastCustomer + 1 : Nat)⟩, email⟩, (t.insertCustomer email).2, out) := by
      unfold createCustomer
      simp only [eval, hnone, Problem.isNoRow, if_true]
      refine (eval_bind _ _ _ _).trans ?_
      rw [eval_asking, Tables.perform, hinserted]
      rfl
    refine ⟨⟨⟨(t.lastCustomer + 1 : Nat)⟩, email⟩, ?_, rfl, ?_⟩
    · simp [Tables.insertCustomer, htaken]
    · unfold customerFor
      simp only [eval, hnone, Problem.isNoRow, if_true]
      exact hcreated

/-- A look for an entry like a new one refuses it, or changes nothing. -/
theorem eval_refuseDuplicate (n : NewEntry) (t : Tables) (out : List Mail) :
    ((∃ e ∈ t.entries, e.toNewEntry = n) →
      (refuseDuplicate n).eval t out =
        (.error (.rejected (.badInput "this mailing entry already exists")), t, out)) ∧
    ((∀ e ∈ t.entries, e.toNewEntry ≠ n) →
      (refuseDuplicate n).eval t out = (.value (), t, out)) := by
  constructor
  · rintro ⟨e, he, hsame⟩
    have hmem : e ∈ t.entries.filter fun e => e.toNewEntry == n :=
      List.mem_filter.mpr ⟨he, by rw [hsame]; exact beq_self_eq_true _⟩
    obtain ⟨f, fs, hfound⟩ := List.exists_cons_of_ne_nil (List.ne_nil_of_mem hmem)
    refine (eval_bind _ _ _ _).trans ?_
    rw [eval_asking, Tables.perform, hfound]
    rfl
  · intro hnew
    have hnone : (t.entries.filter fun e => e.toNewEntry == n) = [] := by
      rw [List.filter_eq_nil_iff]
      simpa using hnew
    refine (eval_bind _ _ _ _).trans ?_
    rw [eval_asking, Tables.perform, hnone]
    rfl

theorem eval_insert {n : NewEntry} {c : Customer} (hc : c ∈ t.customers)
    (hn : n.customer = c.id) (out : List Mail) :
    (insert n).eval t out =
      (.value { n with id := ⟨(t.lastEntry + 1 : Nat)⟩ }, (t.insertEntry n).2, out) := by
  refine (eval_bind _ _ _ _).trans ?_
  rw [eval_asking, Tables.perform, Tables.insertEntry_of_owned hc hn]
  rfl

/-- An entry is stored, unless there is one like it already. -/
theorem eval_insertion {n : NewEntry} {c : Customer} (hc : c ∈ t.customers)
    (hn : n.customer = c.id) (out : List Mail) :
    ((∃ e ∈ t.entries, e.toNewEntry = n) →
      ((refuseDuplicate n).bind fun _ => insert n).eval t out =
        (.error (.rejected (.badInput "this mailing entry already exists")), t, out)) ∧
    ((∀ e ∈ t.entries, e.toNewEntry ≠ n) →
      ((refuseDuplicate n).bind fun _ => insert n).eval t out =
        (.value { n with id := ⟨(t.lastEntry + 1 : Nat)⟩ }, (t.insertEntry n).2, out)) := by
  obtain ⟨hrefused, hpassed⟩ := eval_refuseDuplicate n t out
  constructor
  · intro hstored
    rw [eval_bind, hrefused hstored]
  · intro hnew
    rw [eval_bind, hpassed hnew]
    exact eval_insert hc hn out

end Service

/-! ## Insertion into a set -/

def Mailing.Draft.passes (d : Draft) : Bool := d.check.isOk

/-- The drafts that pass their check, as a set. -/
def Mailing.valid (ds : List Draft) : Finset Draft := (ds.filter Draft.passes).toFinset

def Ended.isValue {ε α : Type} : Ended ε α → Bool
  | .value _ => true
  | _ => false

namespace Service

/-- The second tables come from the first by inserting the valid ones of some drafts, and the
answers say which of them were new. -/
structure Inserts (t : Tables) (ds : List Draft) (answers : List (Ended Failure Entry))
    (u : Tables) : Prop where
  sound : u.Sound
  distinct : u.Distinct
  drafts : u.drafts = t.drafts ∪ valid ds
  one_entry : ∀ d ∈ u.drafts, ∃! e, e ∈ u.entries ∧ u.draft? e = some d
  emails : u.emails = t.emails ∪ (valid ds).image Draft.email
  one_customer : ∀ email ∈ u.emails, ∃! c, c ∈ u.customers ∧ c.email = email
  successes : answers.countP Ended.isValue = (valid ds \ t.drafts).card

variable {t u v : Tables} {ds es : List Draft} {as bs : List (Ended Failure Entry)}

/-- Nothing is inserted where all that is valid is there already. -/
theorem Inserts.nothing (sound : t.Sound) (distinct : t.Distinct) (stored : valid ds ⊆ t.drafts)
    (refused : ∀ a ∈ as, a.isValue = false) : Inserts t ds as t where
  sound := sound
  distinct := distinct
  drafts := (Finset.union_eq_left.mpr stored).symm
  one_entry := fun _ hd => sound.existsUnique_entry distinct hd
  emails := by
    refine (Finset.union_eq_left.mpr (Finset.image_subset_iff.mpr fun d hd => ?_)).symm
    exact t.email_mem_emails (stored hd)
  one_customer := fun _ hemail => sound.existsUnique_customer hemail
  successes := by
    rw [Finset.sdiff_eq_empty_iff_subset.mpr stored, Finset.card_empty, List.countP_eq_zero]
    simpa using refused

theorem Inserts.append (h : Inserts t ds as u) (k : Inserts u es bs v) :
    Inserts t (ds ++ es) (as ++ bs) v := by
  have hvalid : valid (ds ++ es) = valid ds ∪ valid es := by
    rw [valid, List.filter_append, List.toFinset_append, valid, valid]
  refine ⟨k.sound, k.distinct, ?_, k.one_entry, ?_, k.one_customer, ?_⟩
  · rw [k.drafts, h.drafts, hvalid, Finset.union_assoc]
  · rw [k.emails, h.emails, hvalid, Finset.image_union, Finset.union_assoc]
  · -- What the first drafts inserted is not new to the others.
    have hsplit : (valid ds ∪ valid es) \ t.drafts =
        (valid ds \ t.drafts) ∪ (valid es \ u.drafts) := by
      rw [h.drafts]
      ext d
      simp only [Finset.mem_sdiff, Finset.mem_union]
      tauto
    have hdisjoint : Disjoint (valid ds \ t.drafts) (valid es \ u.drafts) := by
      rw [Finset.disjoint_left, h.drafts]
      intro d hd hd'
      simp only [Finset.mem_sdiff, Finset.mem_union] at hd hd'
      exact hd'.2 (.inr hd.1)
    rw [List.countP_append, h.successes, k.successes, hvalid, hsplit,
      Finset.card_union_of_disjoint hdisjoint]

theorem Inserts.of_valid_eq (h : Inserts t ds as u) (same : valid ds = valid es) :
    Inserts t es as u :=
  ⟨h.sound, h.distinct, same ▸ h.drafts, h.one_entry, same ▸ h.emails, h.one_customer,
    same ▸ h.successes⟩

theorem Inserts.insertEntry {d : Draft} {c : Customer} {e : Entry} (sound : t.Sound)
    (distinct : t.Distinct) (passes : d.passes = true)
    (hc : c ∈ (t.insertCustomer d.email).2.customers) (hemail : c.email = d.email)
    (hnew : ∀ e ∈ (t.insertCustomer d.email).2.entries, e.toNewEntry ≠ d.entryFor c.id) :
    Inserts t [d] [.value e] ((t.insertCustomer d.email).2.insertEntry (d.entryFor c.id)).2 := by
  have hsound := sound.insertCustomer d.email
  have hstored := hsound.insertEntry (d.entryFor c.id)
  have hdistinct := (distinct.insertCustomer d.email).insertEntry hnew
  have hvalid : valid [d] = {d} := by simp [valid, passes]
  have hfresh : d ∉ t.drafts := by
    rw [← sound.drafts_insertCustomer d.email, hsound.mem_drafts_iff hc hemail]
    rintro ⟨e, he, hsame⟩
    exact hnew e he hsame
  refine ⟨hstored, hdistinct, ?_, fun _ hd => hstored.existsUnique_entry hdistinct hd, ?_,
    fun _ hemail => hstored.existsUnique_customer hemail, ?_⟩
  · rw [hsound.drafts_insertEntry hc hemail, sound.drafts_insertCustomer, hvalid,
      Finset.union_singleton]
  · rw [Tables.insertEntry_of_owned hc rfl, hvalid, Finset.image_singleton, Finset.union_singleton]
    exact t.emails_insertCustomer d.email
  · rw [hvalid, Finset.sdiff_eq_self_of_disjoint (Finset.disjoint_singleton_left.mpr hfresh)]
    rfl

theorem create_of_passes {d : Draft} (passes : d.passes = true) :
    create d = (customerFor d.email).bind fun c =>
      (refuseDuplicate (d.entryFor c.id)).bind fun _ => insert (d.entryFor c.id) := by
  unfold Draft.passes at passes
  unfold create
  cases hcheck : d.check with
  | error r =>
    rw [hcheck] at passes
    cases passes
  | ok u => rfl

theorem eval_create_of_not_passes {d : Draft} (passes : d.passes = false) (t : Tables)
    (out : List Mail) : ∃ f, (create d).eval t out = (.error f, t, out) := by
  unfold Draft.passes at passes
  unfold create
  cases hcheck : d.check with
  | error r => exact ⟨.rejected r, rfl⟩
  | ok u =>
    rw [hcheck] at passes
    cases passes

/-- To create one draft is to insert it, if it is valid. -/
theorem inserts_create (sound : t.Sound) (distinct : t.Distinct) (d : Draft) (out : List Mail) :
    Inserts t [d] [((create d).eval t out).1.ended]
      (((create d).eval t out).1.kept ((create d).eval t out).2.1 t) := by
  cases hpasses : d.passes with
  | false =>
    obtain ⟨f, hrejected⟩ := eval_create_of_not_passes hpasses t out
    have hvalid : valid [d] = ∅ := by simp [valid, hpasses]
    rw [hrejected]
    exact .nothing sound distinct (hvalid ▸ Finset.empty_subset _)
      (List.forall_mem_singleton.mpr rfl)
  | true =>
    obtain ⟨c, hc, hemail, hcustomer⟩ := eval_customerFor sound d.email out
    obtain ⟨hrefused, hstored⟩ := eval_insertion (n := d.entryFor c.id) hc rfl out
    rw [create_of_passes hpasses, eval_bind, hcustomer]
    dsimp only
    by_cases hdup : ∃ e ∈ (t.insertCustomer d.email).2.entries, e.toNewEntry = d.entryFor c.id
    · have hfailed := hrefused hdup
      have hold : d ∈ t.drafts := by
        rw [← sound.drafts_insertCustomer d.email]
        exact ((sound.insertCustomer d.email).mem_drafts_iff hc hemail).mpr hdup
      have hvalid : valid [d] = {d} := by simp [valid, hpasses]
      rw [hfailed]
      exact .nothing sound distinct (hvalid ▸ Finset.singleton_subset_iff.mpr hold)
        (List.forall_mem_singleton.mpr rfl)
    · have hnew := fun e he hsame => hdup ⟨e, he, hsame⟩
      rw [hstored hnew]
      exact .insertEntry sound distinct hpasses hc hemail hnew

/-! ## One creation after the other -/

variable {σ : Type} {b : Backend σ} {scene : σ → Scene} {calm : σ → Prop}

/-- Creates drafts one after the other, each in a transaction of its own. -/
def createAll (b : Backend σ) :
    List (Option Log.Operation × Draft) → σ → List (Ended Failure Entry) × σ
  | [], s => ([], s)
  | (operation, d) :: rest, s =>
    let (answer, s) := Transaction.within b operation (create d) s
    let (answers, s) := createAll b rest s
    (answer :: answers, s)

theorem inserts_createAll (hb : b.Faithful scene) (hcalm : b.Calm scene calm)
    (requests : List (Option Log.Operation × Draft)) {s : σ} (hs : calm s)
    (closed : (scene s).store.opened = none) (sound : (scene s).store.committed.Sound)
    (distinct : (scene s).store.committed.Distinct) :
    Inserts (scene s).store.committed (requests.map Prod.snd) (createAll b requests s).1
      (scene (createAll b requests s).2).store.committed := by
  induction requests generalizing s with
  | nil => exact .nothing sound distinct (Finset.empty_subset _) (fun _ ha => nomatch ha)
  | cons request rest ih =>
    obtain ⟨operation, d⟩ := request
    obtain ⟨hanswer, hscene⟩ := (hcalm.served operation (create d) hs closed).within hb
    have hs' := hcalm.within hb operation (create d) hs closed
    have hone := inserts_create sound distinct d (scene s).outbox
    rw [← hanswer] at hone
    have hrest := ih hs' (by rw [hscene]) (by rw [hscene]; exact hone.sound)
      (by rw [hscene]; exact hone.distinct)
    rw [hscene] at hrest
    exact hone.append hrest

/-- Creating drafts, each in its own transaction and with nothing going wrong, inserts the valid
ones into the set of what is stored, in whatever order they come. -/
theorem creation_inserts_in_any_order (hb : b.Faithful scene) (hcalm : b.Calm scene calm) {s : σ}
    (hs : calm s) (closed : (scene s).store.opened = none)
    (sound : (scene s).store.committed.Sound) (distinct : (scene s).store.committed.Distinct)
    {requests reordered : List (Option Log.Operation × Draft)}
    (perm : (requests.map Prod.snd).Perm (reordered.map Prod.snd)) :
    let x := createAll b requests s
    let y := createAll b reordered s
    Inserts (scene s).store.committed (requests.map Prod.snd) x.1 (scene x.2).store.committed ∧
      Inserts (scene s).store.committed (requests.map Prod.snd) y.1 (scene y.2).store.committed ∧
      (scene y.2).store.committed.drafts = (scene x.2).store.committed.drafts ∧
      (scene y.2).store.committed.emails = (scene x.2).store.committed.emails ∧
      y.1.countP Ended.isValue = x.1.countP Ended.isValue := by
  intro x y
  have hx := inserts_createAll hb hcalm requests hs closed sound distinct
  have hy := inserts_createAll hb hcalm reordered hs closed sound distinct
  have hvalid : valid (reordered.map Prod.snd) = valid (requests.map Prod.snd) :=
    List.toFinset_eq_of_perm _ _ (perm.symm.filter _)
  have hsame := hy.of_valid_eq hvalid
  refine ⟨hx, hsame, ?_, ?_, ?_⟩
  · exact hsame.drafts.trans hx.drafts.symm
  · exact hsame.emails.trans hx.emails.symm
  · exact hsame.successes.trans hx.successes.symm

/-- One draft is stored already, one comes twice, and one has no title. -/
theorem mixed_drafts_insert_in_any_order :
    let anna : Draft := ⟨⟨7⟩, "anna@example.com", "Hello", "World", .latest⟩
    let ben : Draft := { anna with email := "ben@example.com" }
    let untitled : Draft := { anna with title := "", email := "carl@example.com" }
    let news : Draft := { anna with title := "News" }
    let entry : Entry := { anna.entryFor ⟨1⟩ with id := ⟨1⟩ }
    let r : Rehearsal := { store := ⟨⟨[⟨⟨1⟩, "anna@example.com"⟩], [entry], 1, 1⟩, none, 0⟩ }
    let requests := [ben, anna, untitled, ben, news].map (Prod.mk none)
    let x := createAll Rehearsal.backend requests r
    let y := createAll Rehearsal.backend requests.reverse r
    r.Undisturbed ∧ r.store.opened = none ∧ r.store.committed.Sound ∧
      r.store.committed.Distinct ∧
      (requests.map Prod.snd).Perm (requests.reverse.map Prod.snd) ∧
      Inserts r.store.committed (requests.map Prod.snd) x.1 x.2.store.committed ∧
      Inserts r.store.committed (requests.map Prod.snd) y.1 y.2.store.committed ∧
      y.2.store.committed.drafts = x.2.store.committed.drafts ∧
      y.2.store.committed.entries ≠ x.2.store.committed.entries ∧
      x.1.countP Ended.isValue = 2 ∧ y.1.countP Ended.isValue = 2 := by
  intro anna ben untitled news entry r requests x y
  have hcalm : r.Undisturbed := ⟨rfl, rfl, fun _ _ _ _ => rfl⟩
  have hsound : r.store.committed.Sound :=
    ⟨by decide, by decide, by decide, by decide, by decide, by decide⟩
  have hdistinct : r.store.committed.Distinct := List.pairwise_singleton _ _
  have hperm : (requests.map Prod.snd).Perm (requests.reverse.map Prod.snd) :=
    (List.reverse_perm requests).symm.map _
  have hcomputed : x.1.countP Ended.isValue = 2 ∧
      y.2.store.committed.entries ≠ x.2.store.committed.entries := by decide +kernel
  obtain ⟨htwo, hdiffer⟩ := hcomputed
  obtain ⟨hx, hy, hdrafts, -, hcount⟩ := creation_inserts_in_any_order Rehearsal.faithful
    Rehearsal.calm hcalm rfl hsound hdistinct hperm
  dsimp only [Rehearsal.scene] at hx hy hdrafts
  dsimp only [x, y] at htwo hdiffer ⊢
  exact ⟨hcalm, rfl, hsound, hdistinct, hperm, hx, hy, hdrafts, hdiffer, htwo, hcount.trans htwo⟩

end Service
end MailDispatch
