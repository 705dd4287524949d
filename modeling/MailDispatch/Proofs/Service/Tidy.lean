import MailDispatch.Proofs.Work.Calm
import MailDispatch.Proofs.Work.Keeping
import MailDispatch.Service.Purge
import MailDispatch.Service.Entries
import MailDispatch.Service.Sending

/-! # Tidy tables

The store takes any email and the same entry twice. It is the services that keep its
tables tidy: a draft is checked before anything is stored, and the look for a duplicate
and the insertion happen in one transaction, with nobody else in between.
-/
namespace MailDispatch
open Store Mailing Text Work

def Mailing.NewEntry.Complete (e : NewEntry) : Prop :=
  e.mailing.val ≠ 0 ∧ allBlank e.title = false ∧ allBlank e.content = false

namespace Store

structure Tables.Tidy (t : Tables) : Prop where
  distinct : t.entries.Pairwise fun a b => a.toNewEntry ≠ b.toNewEntry
  complete : ∀ e ∈ t.entries, e.toNewEntry.Complete
  addressed : ∀ c ∈ t.customers, isAddress c.email.toList = true

/-- The calls that keep any tables tidy: none of them stores an entry. -/
def Call.Neat : Call → Prop
  | .insertCustomer email => isAddress email.toList = true
  | .insertEntry _ => False
  | _ => True

namespace Tables

variable {t u : Tables}

/-- No two entries are the same but for their identifiers. -/
def Distinct (t : Tables) : Prop := t.entries.Pairwise fun a b => a.toNewEntry ≠ b.toNewEntry

theorem Distinct.insertEntry (h : t.Distinct) {n : NewEntry}
    (hnew : ∀ e ∈ t.entries, e.toNewEntry ≠ n) : (t.insertEntry n).2.Distinct := by
  unfold Tables.insertEntry
  split
  · refine List.pairwise_append.mpr ⟨h, List.pairwise_singleton _ _, ?_⟩
    intro e he f hf
    obtain rfl := List.mem_singleton.mp hf
    exact hnew e he
  · exact h

namespace Tidy

theorem empty : Tidy .empty :=
  ⟨.nil, by simp [Tables.empty], by simp [Tables.empty]⟩

theorem of_sublist (h : t.Tidy) (hcustomers : u.customers.Sublist t.customers)
    (hentries : u.entries.Sublist t.entries) : u.Tidy := by
  refine ⟨h.distinct.sublist hentries, ?_, ?_⟩
  · intro e he
    exact h.complete e (hentries.subset he)
  · intro c hc
    exact h.addressed c (hcustomers.subset hc)

theorem insertCustomer (h : t.Tidy) {email : String} (hemail : isAddress email.toList = true) :
    (t.insertCustomer email).2.Tidy := by
  unfold Tables.insertCustomer
  split
  · exact h
  · refine ⟨h.distinct, h.complete, ?_⟩
    intro c hc
    rcases List.mem_append.mp hc with hc | hc
    · exact h.addressed c hc
    · obtain rfl := List.mem_singleton.mp hc
      exact hemail

theorem insertEntry (h : t.Tidy) {e : NewEntry} (he : e.Complete)
    (hnew : ∀ f ∈ t.entries, f.toNewEntry ≠ e) : (t.insertEntry e).2.Tidy := by
  refine ⟨Distinct.insertEntry h.distinct hnew, ?_, ?_⟩
  · unfold Tables.insertEntry
    split
    · intro f hf
      rcases List.mem_append.mp hf with hf | hf
      · exact h.complete f hf
      · obtain rfl := List.mem_singleton.mp hf
        exact he
    · exact h.complete
  · unfold Tables.insertEntry
    split <;> exact h.addressed

theorem deleteCustomer (h : t.Tidy) (id : CustomerId) : (t.deleteCustomer id).2.Tidy := by
  unfold Tables.deleteCustomer
  split
  · exact h
  · exact h.of_sublist List.filter_sublist (.refl _)

theorem deleteEntry (h : t.Tidy) (id : MailingEntryId) : (t.deleteEntry id).2.Tidy :=
  h.of_sublist (.refl _) List.filter_sublist

theorem perform (h : t.Tidy) {c : Call} (hc : c.Neat) : (t.perform c).2.Tidy := by
  cases c with
  | insertCustomer email => exact h.insertCustomer hc
  | insertEntry e => exact hc.elim
  | deleteCustomer id => exact h.deleteCustomer id
  | deleteEntry id => exact h.deleteEntry id
  | customerById | customerByEmail | entriesOfMailing | entriesBefore | entriesOfMailingBefore
  | entriesOfCustomer | duplicates => exact h

end Tidy

/-- Of rows whose keys differ exactly one has the key of a given row. -/
theorem length_filter_eq_one {α β : Type} [BEq β] [LawfulBEq β] {key : α → β} {l : List α}
    (h : l.Pairwise fun a b => key a ≠ key b) {a : α} (ha : a ∈ l) :
    (l.filter fun b => key b == key a).length = 1 :=
  Nat.le_antisymm (length_filter_le_one h (key a))
    (List.length_pos_of_mem (List.mem_filter.mpr ⟨ha, beq_self_eq_true _⟩))

theorem Sound.filter_email (h : t.Sound) {c : Customer} (hc : c ∈ t.customers) :
    (t.customers.filter fun d => d.email == c.email) = [c] := by
  have hmem : c ∈ t.customers.filter fun d => d.email == c.email :=
    List.mem_filter.mpr ⟨hc, beq_self_eq_true _⟩
  obtain ⟨d, hd⟩ := List.length_eq_one_iff.mp (length_filter_eq_one h.emails hc)
  rw [hd] at hmem ⊢
  rw [List.mem_singleton.mp hmem]

/-- Where a look for duplicates finds nothing, the entry is a new one. -/
theorem ne_of_duplicates {e : NewEntry} (h : (t.perform (.duplicates e)).1 = .ok []) :
    ∀ f ∈ t.entries, f.toNewEntry ≠ e := by
  have hnone : (t.entries.filter fun f => f.toNewEntry == e) = [] := Except.ok.inj h
  intro f hf he
  exact List.filter_eq_nil_iff.mp hnone f hf (by simp [he])

end Tables
end Store

/-! ## Drafts -/

namespace Mailing

theorem problemIf_eq_nil_iff {p : DraftProblem} {wrong : Bool} :
    problemIf p wrong = [] ↔ wrong = false := by
  cases wrong <;> simp [problemIf]

theorem emailProblems_eq_nil_iff {email : String} :
    emailProblems email = [] ↔ allBlank email = false ∧ isAddress email.toList = true := by
  unfold emailProblems
  cases hblank : allBlank email with
  | true => simp
  | false => simp [problemIf_eq_nil_iff]

/-- A draft passes its check if and only if it makes a complete entry of an address. -/
theorem Draft.check_eq_ok_iff {d : Draft} (c : CustomerId) :
    d.check = .ok () ↔ (d.entryFor c).Complete ∧ allBlank d.email = false ∧
      isAddress d.email.toList = true := by
  have hproblems : d.problems = [] ↔ (d.entryFor c).Complete ∧ allBlank d.email = false ∧
      isAddress d.email.toList = true := by
    simp only [Draft.problems, Draft.entryFor, NewEntry.Complete, List.append_eq_nil_iff,
      problemIf_eq_nil_iff, emailProblems_eq_nil_iff, beq_eq_false_iff_ne]
    constructor
    · rintro ⟨⟨⟨hmailing, hemail⟩, htitle⟩, hcontent⟩
      exact ⟨⟨hmailing, htitle, hcontent⟩, hemail⟩
    · rintro ⟨⟨hmailing, htitle, hcontent⟩, hemail⟩
      exact ⟨⟨⟨hmailing, hemail⟩, htitle⟩, hcontent⟩
  rw [← hproblems]
  unfold Draft.check
  split
  · next hnil => simp [hnil]
  · next hne => simpa using hne

end Mailing

/-! ## Services -/

namespace Service

variable {α : Type}

theorem asks_asking {C : Call → Prop} {c : Call} (h : C c) (step : String) :
    (asking step c).Asks C :=
  (Asks.ask h).mapError

/-- A call answers from the tables, unless a problem or a crash comes first. -/
theorem ensures_asking_iff {step : String} {c : Call} {Q : Post Failure c.Answer} {t : Tables}
    {out : List Mail} :
    (asking step c).Ensures Q t out ↔
      Q ((Work.Outcome.ofExcept (t.perform c).1).mapError (.store step)) (t.perform c).2 out ∧
        (∀ p, Q (.error (.store step p)) t out) ∧ ∀ x, Q (.crash x) t out := by
  unfold asking ask
  rw [ensures_mapError_iff]
  simp only [Ensures]
  cases (t.perform c).1 <;> rfl

/-- Where nothing goes wrong a call answers from the tables. -/
theorem eval_asking (step : String) (c : Call) (t : Tables) (out : List Mail) :
    (asking step c).eval t out =
      ((Work.Outcome.ofExcept (t.perform c).1).mapError (.store step), (t.perform c).2, out) := by
  rw [asking, eval_mapError, ask]
  simp only [eval]
  cases (t.perform c).1 <;> rfl

theorem keeps_tidy {w : Work Failure α} (h : w.Asks Call.Neat) : w.Keeps Tables.Tidy :=
  h.keeps fun _ hc _ ht => ht.perform hc

theorem asks_remove (id : MailingEntryId) : (remove id).Asks Call.Neat := by
  refine ⟨trivial, ?_⟩
  rintro (p | _)
  · dsimp only
    split <;> trivial
  · trivial

theorem asks_removeIfUnused (id : CustomerId) : (removeIfUnused id).Asks Call.Neat := by
  refine Asks.bind (asks_asking trivial _) ?_
  rintro (_ | ⟨e, es⟩)
  · exact asks_asking (c := .deleteCustomer id) trivial _
  · trivial

theorem asks_removeAll (entries : List Entry) : (removeAll entries).Asks Call.Neat := by
  cases entries with
  | nil => trivial
  | cons e es =>
    have hstale : ∀ f : Entry, (removeStale f).Asks Call.Neat := fun f => asks_asking trivial _
    have hunused : (each removeIfUnused (customersOf (e :: es))).Asks Call.Neat :=
      Asks.each asks_removeIfUnused _
    exact (Asks.each hstale _).bind fun _ => hunused.bind fun _ => trivial

theorem asks_purge (now : Time.Timestamp) (threshold : Time.Span) :
    (purge now threshold).Asks Call.Neat :=
  Asks.bind (asks_asking trivial _) asks_removeAll

theorem asks_purgeMailing (m : MailingId) (now : Time.Timestamp) (threshold : Time.Span) :
    (purgeMailing m now threshold).Asks Call.Neat :=
  Asks.bind (asks_asking trivial _) asks_removeAll

/-- An emailer has no access to the store. -/
def Emailer.Apart (emailer : Emailer) : Prop := ∀ m, (emailer m).Asks fun _ => False

theorem carrier_apart : carrier.Apart := by
  intro m r
  cases r <;> trivial

theorem logOnly_apart : logOnly.Apart := fun _ => trivial

theorem asks_sendEntry {emailer : Emailer} (hemailer : emailer.Apart) (e : Entry) :
    (sendEntry emailer e).Asks Call.Neat := by
  refine Asks.bind (asks_asking trivial _) fun c => ?_
  refine Asks.bind ((hemailer _).mono fun _ h => h.elim).mapError fun _ => ?_
  exact asks_asking (c := .deleteEntry e.id) trivial _

theorem asks_sendMailing {emailer : Emailer} (hemailer : emailer.Apart) (m : MailingId) :
    (sendMailing emailer m).Asks Call.Neat := by
  refine Asks.bind (asks_asking trivial _) ?_
  rintro (_ | ⟨e, es⟩)
  · trivial
  · exact Asks.bind (Asks.each (asks_sendEntry hemailer) _) fun _ => trivial

theorem asks_createCustomer {email : String} (hemail : isAddress email.toList = true) :
    (createCustomer email).Asks Call.Neat := by
  refine ⟨trivial, ?_⟩
  rintro (p | c)
  · dsimp only
    split
    · exact Asks.bind (asks_asking hemail _) fun c => trivial
    · trivial
  · trivial

theorem asks_customerFor {email : String} (hemail : isAddress email.toList = true) :
    (customerFor email).Asks Call.Neat := by
  refine ⟨trivial, ?_⟩
  rintro (p | c)
  · dsimp only
    split
    · exact asks_createCustomer hemail
    · trivial
  · trivial

/-- Between the look for a duplicate and the insertion nothing changes the tables. -/
theorem keeps_insertion {e : NewEntry} (he : e.Complete) :
    ((refuseDuplicate e).bind fun _ => insert e).Keeps Tables.Tidy := by
  intro t out ht
  rw [ensures_bind_iff]
  refine ensures_bind_iff.mpr (ensures_asking_iff.mpr ⟨?_, fun _ => ht, fun _ => ht⟩)
  -- A problem in place of the look ends the work, so whoever inserts has seen the answer.
  cases hfound : (t.perform (.duplicates e)).1 with
  | error p => exact ht
  | ok found =>
    cases found with
    | cons f fs => exact ht
    | nil =>
      have htidy : (t.perform (.insertEntry e)).2.Tidy :=
        ht.insertEntry he (Tables.ne_of_duplicates hfound)
      have hinsert : (insert e).Ensures (fun _ u _ => u.Tidy) t out := by
        refine ensures_bind_iff.mpr (ensures_asking_iff.mpr ⟨?_, fun _ => ht, fun _ => ht⟩)
        cases (t.perform (.insertEntry e)).1 <;> exact htidy
      exact hinsert

theorem keeps_create (d : Draft) : (create d).Keeps Tables.Tidy := by
  unfold create
  cases hcheck : d.check with
  | error r => exact fun _ _ ht => ht
  | ok u =>
    have hemail : isAddress d.email.toList = true := ((Draft.check_eq_ok_iff ⟨0⟩).mp hcheck).2.2
    have hcustomer : (customerFor d.email).Keeps Tables.Tidy :=
      keeps_tidy (asks_customerFor hemail)
    refine hcustomer.bind fun c => keeps_insertion ?_
    exact ((Draft.check_eq_ok_iff c.id).mp hcheck).1

end Service
end MailDispatch
