import MailDispatch.Store.Tables

/-! # Sound tables

Emails are unique, identifiers ascend and were all given by the counters, and every
entry belongs to a stored customer. Every call keeps tables sound, and on sound
tables a call that fails changes nothing and no query finds more rows than it wants.
-/
namespace MailDispatch.Store
open Mailing Time

structure Tables.Sound (t : Tables) : Prop where
  emails : t.customers.Pairwise fun a b => a.email ≠ b.email
  customers_ascend : t.customers.Pairwise fun a b => a.id.val < b.id.val
  customer_given : ∀ c ∈ t.customers, 1 ≤ c.id.val ∧ c.id.val ≤ t.lastCustomer
  entries_ascend : t.entries.Pairwise fun a b => a.id.val < b.id.val
  entry_given : ∀ e ∈ t.entries, 1 ≤ e.id.val ∧ e.id.val ≤ t.lastEntry
  owned : ∀ e ∈ t.entries, ∃ c ∈ t.customers, c.id = e.customer

/-- Of rows whose keys differ at most one has a given key. -/
theorem length_filter_le_one {α β : Type} [BEq β] [LawfulBEq β] {key : α → β} {l : List α}
    (h : l.Pairwise fun a b => key a ≠ key b) (k : β) :
    (l.filter fun a => key a == k).length ≤ 1 := by
  induction l with
  | nil => simp
  | cons a rest ih =>
    obtain ⟨ha, hr⟩ := List.pairwise_cons.mp h
    by_cases hk : key a = k
    · have hn : (rest.filter fun b => key b == k) = [] := by
        rw [List.filter_eq_nil_iff]
        intro b hb
        simpa [← hk] using fun e => ha b hb e.symm
      simp [hk, hn]
    · simpa [hk] using ih hr

/-- Leaving out the rows of a key and counting what is gone counts those rows. -/
theorem length_sub_length_filter {α β : Type} [BEq β] (key : α → β) (l : List α) (k : β) :
    l.length - (l.filter fun a => key a != k).length = (l.filter fun a => key a == k).length := by
  induction l with
  | nil => rfl
  | cons a rest ih =>
    have hle := List.length_filter_le (fun a => key a != k) rest
    cases h : key a == k with
    | true =>
      have hn : (key a != k) = false := by simp [bne, h]
      simp only [List.filter_cons, h, hn, List.length_cons, if_true]
      simp only [Bool.false_eq_true, ↓reduceIte]
      omega
    | false =>
      have hn : (key a != k) = true := by simp [bne, h]
      simp only [List.filter_cons, h, hn, List.length_cons, if_true]
      simp only [Bool.false_eq_true, ↓reduceIte]
      omega

theorem exactlyOne_ne_manyRows {α : Type} {query q : String} {l : List α} (h : l.length ≤ 1) :
    exactlyOne query l ≠ .error (.manyRows q) := by
  match l with
  | [] => simp [exactlyOne]
  | [a] => simp [exactlyOne]
  | _ :: _ :: _ => simp at h

theorem exactlyOneAffected_eq_error {query : String} {n : Nat} {p : Problem} (hn : n ≤ 1)
    (h : exactlyOneAffected query n = .error p) : n = 0 ∧ p = .noRow query := by
  match n with
  | 0 => exact ⟨rfl, by simpa [exactlyOneAffected, eq_comm] using h⟩
  | 1 => simp [exactlyOneAffected] at h
  | n + 2 => omega

namespace Tables

theorem Sound.empty : Sound Tables.empty :=
  ⟨.nil, .nil, by simp [Tables.empty], .nil, by simp [Tables.empty], by simp [Tables.empty]⟩

variable {t : Tables}

theorem Sound.customer_ids (h : t.Sound) : t.customers.Pairwise fun a b => a.id ≠ b.id :=
  h.customers_ascend.imp fun hlt he => by simp [he] at hlt

theorem Sound.entry_ids (h : t.Sound) : t.entries.Pairwise fun a b => a.id ≠ b.id :=
  h.entries_ascend.imp fun hlt he => by simp [he] at hlt

/-! ## Insertions and deletions -/

theorem Sound.insertCustomer (h : t.Sound) (email : String) : (t.insertCustomer email).2.Sound := by
  unfold Tables.insertCustomer
  split
  · exact h
  · next hfree =>
    have hne : ∀ c ∈ t.customers, c.email ≠ email := by simpa using hfree
    refine ⟨?_, ?_, ?_, h.entries_ascend, h.entry_given, ?_⟩
    · refine List.pairwise_append.mpr ⟨h.emails, List.pairwise_singleton _ _, ?_⟩
      intro c hc d hd
      obtain rfl := List.mem_singleton.mp hd
      exact hne c hc
    · refine List.pairwise_append.mpr ⟨h.customers_ascend, List.pairwise_singleton _ _, ?_⟩
      intro c hc d hd
      obtain rfl := List.mem_singleton.mp hd
      have := (h.customer_given c hc).2
      dsimp only
      omega
    · intro c hc
      rcases List.mem_append.mp hc with hc | hc
      · have := h.customer_given c hc
        dsimp only
        omega
      · obtain rfl := List.mem_singleton.mp hc
        dsimp only
        omega
    · intro e he
      obtain ⟨c, hc, hid⟩ := h.owned e he
      exact ⟨c, List.mem_append_left _ hc, hid⟩

theorem Sound.insertEntry (h : t.Sound) (e : NewEntry) : (t.insertEntry e).2.Sound := by
  unfold Tables.insertEntry
  split
  · next hstored =>
    refine ⟨h.emails, h.customers_ascend, h.customer_given, ?_, ?_, ?_⟩
    · refine List.pairwise_append.mpr ⟨h.entries_ascend, List.pairwise_singleton _ _, ?_⟩
      intro a ha b hb
      obtain rfl := List.mem_singleton.mp hb
      have := (h.entry_given a ha).2
      dsimp only
      omega
    · intro a ha
      rcases List.mem_append.mp ha with ha | ha
      · have := h.entry_given a ha
        dsimp only
        omega
      · obtain rfl := List.mem_singleton.mp ha
        dsimp only
        omega
    · intro a ha
      rcases List.mem_append.mp ha with ha | ha
      · exact h.owned a ha
      · obtain rfl := List.mem_singleton.mp ha
        obtain ⟨c, hc, hid⟩ := List.any_eq_true.mp hstored
        exact ⟨c, hc, by simpa using hid⟩
  · exact h

theorem Sound.deleteEntry (h : t.Sound) (id : MailingEntryId) : (t.deleteEntry id).2.Sound := by
  refine ⟨h.emails, h.customers_ascend, h.customer_given, h.entries_ascend.filter _, ?_, ?_⟩
  · exact fun e he => h.entry_given e (List.mem_filter.mp he).1
  · exact fun e he => h.owned e (List.mem_filter.mp he).1

theorem Sound.deleteCustomer (h : t.Sound) (id : CustomerId) : (t.deleteCustomer id).2.Sound := by
  unfold Tables.deleteCustomer
  split
  · exact h
  · next hfree =>
    have hne : ∀ e ∈ t.entries, e.customer ≠ id := by simpa using hfree
    refine ⟨h.emails.filter _, h.customers_ascend.filter _, ?_, h.entries_ascend, h.entry_given, ?_⟩
    · exact fun c hc => h.customer_given c (List.mem_filter.mp hc).1
    · intro e he
      obtain ⟨c, hc, hid⟩ := h.owned e he
      refine ⟨c, List.mem_filter.mpr ⟨hc, ?_⟩, hid⟩
      simpa [hid] using hne e he

theorem Sound.perform (h : t.Sound) (c : Call) : (t.perform c).2.Sound := by
  cases c with
  | insertCustomer email => exact h.insertCustomer email
  | deleteCustomer id => exact h.deleteCustomer id
  | insertEntry e => exact h.insertEntry e
  | deleteEntry id => exact h.deleteEntry id
  | customerById | customerByEmail | entriesOfMailing | entriesBefore | entriesOfMailingBefore
  | entriesOfCustomer | duplicates => exact h

/-! ## Calls that fail -/

theorem filter_bne_eq_self {α β : Type} [BEq β] (key : α → β) {l : List α} {k : β}
    (h : (l.filter fun a => key a == k).length = 0) : (l.filter fun a => key a != k) = l := by
  rw [List.filter_eq_self]
  intro a ha
  have hn := List.length_eq_zero_iff.mp h
  rw [List.filter_eq_nil_iff] at hn
  simpa [bne] using hn a ha

/-- A call that fails on sound tables changes nothing. -/
theorem Sound.perform_error (h : t.Sound) {c : Call} {p : Problem}
    (hp : (t.perform c).1 = .error p) : (t.perform c).2 = t := by
  cases c with
  | insertCustomer email =>
    simp only [Tables.perform, Tables.insertCustomer] at hp ⊢
    split at hp
    · next hs => rw [if_pos hs]
    · cases hp
  | insertEntry e =>
    simp only [Tables.perform, Tables.insertEntry] at hp ⊢
    split at hp
    · cases hp
    · next hs => rw [if_neg hs]
  | deleteCustomer id =>
    simp only [Tables.perform, Tables.deleteCustomer] at hp ⊢
    split at hp
    · next hs => rw [if_pos hs]
    · next hs =>
      rw [if_neg hs]
      rw [length_sub_length_filter (fun c : Customer => c.id)] at hp
      have hz := exactlyOneAffected_eq_error (length_filter_le_one h.customer_ids id) hp
      rw [filter_bne_eq_self (fun c : Customer => c.id) hz.1]
  | deleteEntry id =>
    simp only [Tables.perform, Tables.deleteEntry] at hp ⊢
    rw [length_sub_length_filter (fun e : Entry => e.id)] at hp
    have hz := exactlyOneAffected_eq_error (length_filter_le_one h.entry_ids id) hp
    rw [filter_bne_eq_self (fun e : Entry => e.id) hz.1]
  | customerById | customerByEmail | entriesOfMailing | entriesBefore | entriesOfMailingBefore
  | entriesOfCustomer | duplicates => rfl

/-- On sound tables no call finds more rows than it wants. -/
theorem Sound.perform_ne_manyRows (h : t.Sound) (c : Call) (q : String) :
    (t.perform c).1 ≠ .error (.manyRows q) := by
  cases c with
  | customerById id => exact exactlyOne_ne_manyRows (length_filter_le_one h.customer_ids id)
  | customerByEmail email => exact exactlyOne_ne_manyRows (length_filter_le_one h.emails email)
  | insertCustomer email =>
    simp only [Tables.perform, Tables.insertCustomer]
    split <;> simp
  | insertEntry e =>
    simp only [Tables.perform, Tables.insertEntry]
    split <;> simp
  | deleteCustomer id =>
    simp only [Tables.perform, Tables.deleteCustomer]
    split
    · simp
    · rw [length_sub_length_filter (fun c : Customer => c.id)]
      intro hp
      exact absurd (exactlyOneAffected_eq_error (length_filter_le_one h.customer_ids id) hp).2
        (by simp)
  | deleteEntry id =>
    simp only [Tables.perform, Tables.deleteEntry]
    rw [length_sub_length_filter (fun e : Entry => e.id)]
    intro hp
    exact absurd (exactlyOneAffected_eq_error (length_filter_le_one h.entry_ids id) hp).2 (by simp)
  | entriesOfMailing | entriesBefore | entriesOfMailingBefore | entriesOfCustomer | duplicates =>
    simp [Tables.perform]

end Tables
end MailDispatch.Store
