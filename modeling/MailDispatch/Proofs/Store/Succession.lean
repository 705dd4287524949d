import MailDispatch.Proofs.Store.Steps

/-! # Identifiers over a whole history

Rows come and go, but no counter ever goes back. So tables that come out of others by
calls hold, apart from rows of those, only rows with identifiers that were not given
before. Histories carry this over to what is committed and to what the open
transaction works on, and with it an identifier that was once committed names the
same row for ever. The counters have no end here, so no history runs out of
identifiers.
-/
namespace MailDispatch.Store
open Mailing

/-- The second tables may have come out of the first by calls. -/
structure Tables.Precedes (t u : Tables) : Prop where
  lastCustomer_le : t.lastCustomer ≤ u.lastCustomer
  lastEntry_le : t.lastEntry ≤ u.lastEntry
  customer_old_or_new : ∀ c ∈ u.customers, c ∈ t.customers ∨ (t.lastCustomer : Int) < c.id.val
  entry_old_or_new : ∀ e ∈ u.entries, e ∈ t.entries ∨ (t.lastEntry : Int) < e.id.val

namespace Tables

variable {t u v : Tables}

theorem Precedes.refl (t : Tables) : t.Precedes t :=
  ⟨Nat.le_refl _, Nat.le_refl _, fun _ hc => Or.inl hc, fun _ he => Or.inl he⟩

theorem Precedes.trans (h : t.Precedes u) (k : u.Precedes v) : t.Precedes v := by
  have hc := h.lastCustomer_le
  have he := h.lastEntry_le
  refine ⟨Nat.le_trans hc k.lastCustomer_le, Nat.le_trans he k.lastEntry_le, ?_, ?_⟩
  · intro c hv
    rcases k.customer_old_or_new c hv with hu | hnew
    · exact h.customer_old_or_new c hu
    · right
      omega
  · intro e hv
    rcases k.entry_old_or_new e hv with hu | hnew
    · exact h.entry_old_or_new e hu
    · right
      omega

theorem Precedes.of_subset (hc : u.lastCustomer = t.lastCustomer) (he : u.lastEntry = t.lastEntry)
    (customers : ∀ c ∈ u.customers, c ∈ t.customers) (entries : ∀ e ∈ u.entries, e ∈ t.entries) :
    t.Precedes u :=
  ⟨Nat.le_of_eq hc.symm, Nat.le_of_eq he.symm, fun c h => Or.inl (customers c h),
    fun e h => Or.inl (entries e h)⟩

theorem precedes_insertCustomer (t : Tables) (email : String) :
    t.Precedes (t.insertCustomer email).2 := by
  unfold insertCustomer
  split
  · exact .refl t
  · refine ⟨Nat.le_succ _, Nat.le_refl _, ?_, fun _ he => Or.inl he⟩
    intro c hc
    rcases List.mem_append.mp hc with hc | hc
    · exact Or.inl hc
    · obtain rfl := List.mem_singleton.mp hc
      right
      dsimp only
      omega

theorem precedes_insertEntry (t : Tables) (e : NewEntry) : t.Precedes (t.insertEntry e).2 := by
  unfold insertEntry
  split
  · refine ⟨Nat.le_refl _, Nat.le_succ _, fun _ hc => Or.inl hc, ?_⟩
    intro f hf
    rcases List.mem_append.mp hf with hf | hf
    · exact Or.inl hf
    · obtain rfl := List.mem_singleton.mp hf
      right
      dsimp only
      omega
  · exact .refl t

theorem precedes_deleteCustomer (t : Tables) (id : CustomerId) :
    t.Precedes (t.deleteCustomer id).2 := by
  unfold deleteCustomer
  split
  · exact .refl t
  · exact .of_subset rfl rfl (fun _ hc => (List.mem_filter.mp hc).1) (fun _ he => he)

theorem precedes_deleteEntry (t : Tables) (id : MailingEntryId) :
    t.Precedes (t.deleteEntry id).2 :=
  .of_subset rfl rfl (fun _ hc => hc) (fun _ he => (List.mem_filter.mp he).1)

theorem precedes_perform (t : Tables) (c : Call) : t.Precedes (t.perform c).2 := by
  cases c with
  | insertCustomer email => exact t.precedes_insertCustomer email
  | deleteCustomer id => exact t.precedes_deleteCustomer id
  | insertEntry e => exact t.precedes_insertEntry e
  | deleteEntry id => exact t.precedes_deleteEntry id
  | customerById | customerByEmail | entriesOfMailing | entriesBefore | entriesOfMailingBefore
  | entriesOfCustomer | duplicates => exact .refl t

/-- The identifier of a new customer is one that the counter had not reached. -/
theorem lastCustomer_lt_of_insertCustomer {email : String} {c : Customer}
    (h : (t.insertCustomer email).1 = .ok c) : (t.lastCustomer : Int) < c.id.val := by
  unfold insertCustomer at h
  split at h
  · cases h
  · obtain rfl := Except.ok.inj h
    dsimp only
    omega

theorem lastEntry_lt_of_insertEntry {n : NewEntry} {e : Entry}
    (h : (t.insertEntry n).1 = .ok e) : (t.lastEntry : Int) < e.id.val := by
  unfold insertEntry at h
  split at h
  · obtain rfl := Except.ok.inj h
    dsimp only
    omega
  · cases h

theorem eq_of_key_eq {α β : Type} {key : α → β} {l : List α}
    (h : l.Pairwise fun a b => key a ≠ key b) {a b : α} (ha : a ∈ l) (hb : b ∈ l)
    (hkey : key a = key b) : a = b := by
  have hall : l.Pairwise fun a b => key a = key b → a = b :=
    h.imp fun hne he => absurd he hne
  have hflip : l.Pairwise (flip fun a b => key a = key b → a = b) :=
    h.imp fun hne he => absurd he.symm hne
  exact hall.forall_of_forall_of_flip (fun _ _ _ => rfl) hflip ha hb hkey

theorem Sound.customer_unique (h : t.Sound) {c d : Customer} (hc : c ∈ t.customers)
    (hd : d ∈ t.customers) (hid : d.id = c.id) : d = c :=
  eq_of_key_eq h.customer_ids hd hc hid

theorem Sound.entry_unique (h : t.Sound) {e f : Entry} (he : e ∈ t.entries)
    (hf : f ∈ t.entries) (hid : f.id = e.id) : f = e :=
  eq_of_key_eq h.entry_ids hf he hid

/-- Later on, the identifier of a stored customer still names nobody else. -/
theorem Precedes.customer_eq (h : t.Precedes u) (ht : t.Sound) {c d : Customer}
    (hc : c ∈ t.customers) (hd : d ∈ u.customers) (hid : d.id = c.id) : d = c := by
  rcases h.customer_old_or_new d hd with hold | hnew
  · exact ht.customer_unique hc hold hid
  · have hle := (ht.customer_given c hc).2
    rw [hid] at hnew
    omega

theorem Precedes.entry_eq (h : t.Precedes u) (ht : t.Sound) {e f : Entry}
    (he : e ∈ t.entries) (hf : f ∈ u.entries) (hid : f.id = e.id) : f = e := by
  rcases h.entry_old_or_new f hf with hold | hnew
  · exact ht.entry_unique he hold hid
  · have hle := (ht.entry_given e he).2
    rw [hid] at hnew
    omega

end Tables

namespace Locked

/-- The tables that can be seen in a store: the committed ones, and those that the open
transaction works on. -/
def tables (s : Locked) : List Tables := s.committed :: (s.opened.map (·.2)).toList

theorem mem_tables {s : Locked} {t : Tables} :
    t ∈ s.tables ↔ t = s.committed ∨ ∃ token, s.opened = some (token, t) := by
  simp [tables]

theorem Sound.of_mem_tables {s : Locked} (h : s.Sound) {t : Tables} (ht : t ∈ s.tables) :
    t.Sound := by
  rcases mem_tables.mp ht with rfl | ⟨token, ho⟩
  · exact h.committed
  · exact h.working token t ho

/-- What is committed comes after the given tables, and so does what the open transaction
works on. -/
structure After (t : Tables) (s : Locked) : Prop where
  committed : t.Precedes s.committed
  working : ∀ token w, s.opened = some (token, w) → t.Precedes w

theorem After.of_mem_tables {t u : Tables} {s : Locked} (h : After t s) (hu : u ∈ s.tables) :
    t.Precedes u := by
  rcases mem_tables.mp hu with rfl | ⟨token, ho⟩
  · exact h.committed
  · exact h.working token u ho

/-- Whatever the next step is, the tables seen after it come after the given ones. -/
theorem After.step {t : Tables} {s s' : Locked} {a : Action} {r : Reply} (h : After t s)
    (hstep : Step s a r s') : After t s' := by
  cases hstep with
  | opens _ =>
    refine ⟨h.committed, ?_⟩
    rintro u w ⟨⟩
    exact h.committed
  | asks c ho =>
    refine ⟨h.committed, ?_⟩
    rintro u w ⟨⟩
    exact (h.working _ _ ho).trans (Tables.precedes_perform _ c)
  | commits ho => exact ⟨h.working _ _ ho, fun _ _ hnone => by cases hnone⟩
  | rollsBack _ => exact ⟨h.committed, fun _ _ hnone => by cases hnone⟩
  | waits _ => exact h
  | asksClosed _ _ => exact h
  | commitsClosed _ => exact h
  | rollsBackClosed _ => exact h

theorem After.replay {t : Tables} {s : Locked} (h : After t s) (as : List Action) :
    After t (s.replay as).2 :=
  replay_keeps (fun s a h => h.step (step_act s a)) h as

/-- The open transaction of a store works on tables that come after the committed ones. -/
def Grown (s : Locked) : Prop := After s.committed s

theorem Grown.of_closed {s : Locked} (h : s.opened = none) : s.Grown := by
  refine ⟨.refl _, ?_⟩
  intro token w ho
  rw [h] at ho
  cases ho

theorem Grown.step {s s' : Locked} {a : Action} {r : Reply} (h : s.Grown)
    (hstep : Step s a r s') : s'.Grown := by
  have hafter := After.step h hstep
  cases hstep with
  | opens _ => exact hafter
  | asks _ _ => exact hafter
  | commits _ => exact .of_closed rfl
  | rollsBack _ => exact .of_closed rfl
  | waits _ => exact h
  | asksClosed _ _ => exact h
  | commitsClosed _ => exact h
  | rollsBackClosed _ => exact h

theorem Grown.replay {s : Locked} (h : s.Grown) (as : List Action) : (s.replay as).2.Grown :=
  replay_keeps (fun s a h => h.step (step_act s a)) h as

/-- A customer inserted later gets an identifier that the earlier tables had not reached. -/
theorem After.lastCustomer_lt {t : Tables} {s : Locked} (h : After t s) {bs : List Action}
    {email : String} {d : Customer}
    (hd : Reply.answered (.insertCustomer email) (.ok d) ∈ (s.replay bs).1) :
    (t.lastCustomer : Int) < d.id.val := by
  obtain ⟨cs, a, hr⟩ := exists_act_of_mem_replay hd
  rcases perform_of_answered hr.symm with hclosed | ⟨token, w, ho, hx⟩
  · cases hclosed
  · have hle := ((h.replay cs).working token w ho).lastCustomer_le
    have hlt := Tables.lastCustomer_lt_of_insertCustomer hx.symm
    omega

theorem After.lastEntry_lt {t : Tables} {s : Locked} (h : After t s) {bs : List Action}
    {n : NewEntry} {e : Entry}
    (he : Reply.answered (.insertEntry n) (.ok e) ∈ (s.replay bs).1) :
    (t.lastEntry : Int) < e.id.val := by
  obtain ⟨cs, a, hr⟩ := exists_act_of_mem_replay he
  rcases perform_of_answered hr.symm with hclosed | ⟨token, w, ho, hx⟩
  · cases hclosed
  · have hle := ((h.replay cs).working token w ho).lastEntry_le
    have hlt := Tables.lastEntry_lt_of_insertEntry hx.symm
    omega

theorem Sound.manyRows_not_mem {s : Locked} (h : s.Sound) (as : List Action) (c : Call)
    (query : String) : Reply.answered c (.error (.manyRows query)) ∉ (s.replay as).1 := by
  intro hmem
  obtain ⟨bs, a, hr⟩ := exists_act_of_mem_replay hmem
  have hsound : (s.replay bs).2.Sound := replay_keeps (fun _ a h => h.act a) h bs
  rcases perform_of_answered hr.symm with hclosed | ⟨token, w, ho, hx⟩
  · cases hclosed
  · exact (hsound.working token w ho).perform_ne_manyRows c query hx.symm

theorem Sound.call_error {s : Locked} (h : s.Sound) {token : Token} {c : Call} {p : Problem}
    (hp : (s.call token c).1 = .error p) : (s.call token c).2 = s := by
  cases hv : s.view? token with
  | none => rw [call_of_view?_none hv]
  | some w =>
    have ho := view?_eq_some_iff.mp hv
    rw [call_of_opened ho] at hp ⊢
    have hsame : (w.perform c).2 = w := (h.working token w ho).perform_error hp
    rw [hsame, ← ho]

/-- From the empty store on, histories keep both the committed tables and those of the open
transaction sound, no call ever finds more rows than it wants, calls that fail change nothing, and
the identifier of a committed row is never given again and names that row for ever. -/
theorem histories_keep_store_sound (as : List Action) :
    let s := (empty.replay as).2
    (∀ t ∈ s.tables, t.Sound) ∧
      (∀ c query, Reply.answered c (.error (.manyRows query)) ∉ (empty.replay as).1) ∧
      (∀ token c p, (s.call token c).1 = .error p → (s.call token c).2 = s) ∧
      ∀ bs,
        (∀ c ∈ s.committed.customers,
          (∀ email d, Reply.answered (.insertCustomer email) (.ok d) ∈ (s.replay bs).1 →
            c.id.val < d.id.val) ∧
          ∀ t ∈ (s.replay bs).2.tables, ∀ d ∈ t.customers, d.id = c.id → d = c) ∧
        ∀ e ∈ s.committed.entries,
          (∀ n f, Reply.answered (.insertEntry n) (.ok f) ∈ (s.replay bs).1 →
            e.id.val < f.id.val) ∧
          ∀ t ∈ (s.replay bs).2.tables, ∀ f ∈ t.entries, f.id = e.id → f = e := by
  intro s
  have hsound : s.Sound := sound_replay_empty as
  have hgrown : After s.committed s := (Grown.of_closed rfl).replay as
  refine ⟨fun t ht => hsound.of_mem_tables ht, Sound.empty.manyRows_not_mem as,
    fun token c p hp => hsound.call_error hp, ?_⟩
  intro bs
  have hafter := hgrown.replay bs
  refine ⟨fun c hc => ⟨?_, ?_⟩, fun e he => ⟨?_, ?_⟩⟩
  · intro email d hd
    have hlt := hgrown.lastCustomer_lt hd
    have hle := (hsound.committed.customer_given c hc).2
    omega
  · intro t ht d hd hid
    exact (hafter.of_mem_tables ht).customer_eq hsound.committed hc hd hid
  · intro n f hf
    have hlt := hgrown.lastEntry_lt hf
    have hle := (hsound.committed.entry_given e he).2
    omega
  · intro t ht f hf hid
    exact (hafter.of_mem_tables ht).entry_eq hsound.committed he hf hid

/-- A customer who was deleted comes back under a new identifier. -/
theorem deleted_customer_keeps_identifier :
    let email := "anna@example.com"
    let s := (empty.replay [.begin, .call 0 (.insertCustomer email), .commit 0]).2
    let bs : List Action := [.begin, .call 1 (.deleteCustomer ⟨1⟩), .commit 1, .begin,
      .call 2 (.insertCustomer email)]
    ⟨⟨1⟩, email⟩ ∈ s.committed.customers ∧ (s.replay bs).2.committed.customers = [] ∧
      Reply.answered (.insertCustomer email) (.ok ⟨⟨2⟩, email⟩) ∈ (s.replay bs).1 ∧
      (1 : Int) < 2 := by
  intro email s bs
  have hstored : (⟨⟨1⟩, email⟩ : Customer) ∈ s.committed.customers := .head _
  have hanswered : Reply.answered (.insertCustomer email) (.ok ⟨⟨2⟩, email⟩) ∈ (s.replay bs).1 :=
    .tail _ (.tail _ (.tail _ (.tail _ (.head _))))
  have hgiven := (histories_keep_store_sound
    [.begin, .call 0 (.insertCustomer email), .commit 0]).2.2.2 bs
  exact ⟨hstored, rfl, hanswered, (hgiven.1 _ hstored).1 _ _ hanswered⟩

end Locked
end MailDispatch.Store
