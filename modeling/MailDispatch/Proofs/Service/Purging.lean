import MailDispatch.Proofs.Service.Tidy
import MailDispatch.Proofs.Store.Succession

/-! # What a purge leaves

A purge takes the stale entries out one by one, and then the customers of these one by one.
On the way each call may fail; a purge that ends with a value has done all of it, and no
purge sends mail.
-/
namespace MailDispatch
open Store Mailing Work Time

namespace Store.Tables

variable {t : Tables}

/-- The tables without the stale entries, and without the customers whom that left without any. -/
def purged (t : Tables) (stale : Entry → Bool) : Tables :=
  { t with
    customers := t.customers.filter fun c =>
      (t.entries.any fun e => e.customer == c.id && !stale e) ||
        !t.entries.any fun e => e.customer == c.id && stale e
    entries := t.entries.filter fun e => !stale e }

/-- The tables without the entries that have the identifiers of some. -/
def without (t : Tables) (es : List Entry) : Tables :=
  { t with entries := t.entries.filter fun e => es.all fun f => e.id != f.id }

/-- The tables without those of some customers who have no entries. -/
def withoutUnused (t : Tables) (ids : List CustomerId) : Tables :=
  { t with
    customers := t.customers.filter fun c =>
      !ids.contains c.id || t.entries.any fun e => e.customer == c.id }

theorem without_nil (t : Tables) : t.without [] = t :=
  congrArg (fun es => { t with entries := es }) (List.filter_eq_self.mpr fun _ _ => rfl)

theorem purged_nothing (t : Tables) : (t.purged fun _ => false) = t := by
  have hcustomers : ∀ c ∈ t.customers, ((t.entries.any fun e => e.customer == c.id && !false) ||
      !t.entries.any fun e => e.customer == c.id && false) = true := by simp
  simp only [purged, List.filter_eq_self.mpr hcustomers]
  exact congrArg (fun es => { t with entries := es }) (List.filter_eq_self.mpr fun _ _ => rfl)

theorem without_append (t : Tables) (es fs : List Entry) :
    (t.without es).without fs = t.without (es ++ fs) := by
  simp [without, List.filter_filter, Bool.and_comm]

theorem withoutUnused_nil (t : Tables) : t.withoutUnused [] = t :=
  congrArg (fun cs => { t with customers := cs }) (List.filter_eq_self.mpr fun _ _ => rfl)

theorem withoutUnused_append (t : Tables) (ids js : List CustomerId) :
    (t.withoutUnused ids).withoutUnused js = t.withoutUnused (ids ++ js) := by
  simp only [withoutUnused, List.filter_filter, Tables.mk.injEq, and_true]
  refine List.filter_congr fun c _ => ?_
  rw [← Bool.or_and_distrib_right, ← Bool.not_or, List.contains_append,
    Bool.or_comm (js.contains c.id)]

theorem withoutUnused_of_used {id : CustomerId} {e : Entry} {es : List Entry}
    (h : (t.entries.filter fun e => e.customer == id) = e :: es) : t.withoutUnused [id] = t := by
  have he : e ∈ t.entries.filter fun e => e.customer == id := h ▸ List.mem_cons_self
  obtain ⟨hmem, hid⟩ := List.mem_filter.mp he
  have hused : (t.entries.any fun e => e.customer == id) = true :=
    List.any_eq_true.mpr ⟨e, hmem, hid⟩
  refine congrArg (fun cs => { t with customers := cs }) (List.filter_eq_self.mpr fun c _ => ?_)
  by_cases hc : c.id = id <;> simp [hc, hused]

theorem deleteCustomer_of_unused {id : CustomerId}
    (h : (t.entries.filter fun e => e.customer == id) = []) :
    (t.deleteCustomer id).2 = t.withoutUnused [id] := by
  have hunused : (t.entries.any fun e => e.customer == id) = false := by
    rw [List.any_eq_false]
    exact List.filter_eq_nil_iff.mp h
  simp only [deleteCustomer, hunused, withoutUnused]
  simp only [Bool.false_eq_true, if_false, Tables.mk.injEq, and_true]
  refine List.filter_congr fun c _ => ?_
  by_cases hc : c.id = id <;> simp [hc, hunused]

theorem deleteEntry_eq_without (t : Tables) (e : Entry) :
    (t.deleteEntry e.id).2 = t.without [e] := by
  simp [deleteEntry, without]

/-- Taking out entries by their identifiers takes out these entries only. -/
theorem Sound.without_of_stored (h : t.Sound) {es : List Entry} (stored : ∀ e ∈ es, e ∈ t.entries) :
    t.without es = { t with entries := t.entries.filter fun e => e ∉ es } := by
  simp only [without, Tables.mk.injEq, and_true, true_and]
  refine List.filter_congr fun e he => ?_
  rw [Bool.eq_iff_iff, List.all_eq_true, decide_eq_true_iff]
  constructor
  · intro hall hmem
    exact bne_iff_ne.mp (hall e hmem) rfl
  · intro hnot f hf
    rw [bne_iff_ne]
    intro hid
    obtain rfl := h.entry_unique (stored f hf) he hid
    exact hnot hf

theorem Sound.without_filter (h : t.Sound) (p : Entry → Bool) :
    t.without (t.entries.filter p) = { t with entries := t.entries.filter fun e => !p e } := by
  rw [h.without_of_stored fun e he => (List.mem_filter.mp he).1]
  simp only [Tables.mk.injEq, and_true, true_and]
  refine List.filter_congr fun e he => ?_
  cases hp : p e <;> simp [he, hp]

end Store.Tables

namespace Service
open Store.Tables

theorem mem_insertAscending {a id : CustomerId} {ids : List CustomerId} :
    a ∈ insertAscending id ids ↔ a = id ∨ a ∈ ids := by
  induction ids with
  | nil => simp [insertAscending]
  | cons b ids ih =>
    unfold insertAscending
    split
    · exact List.mem_cons
    · split
      · next heq =>
        rw [List.mem_cons, heq]
        exact ⟨.inr, fun h => h.elim .inl fun h => h⟩
      · rw [List.mem_cons, ih, List.mem_cons]
        exact or_left_comm

theorem mem_customersOf {a : CustomerId} {es : List Entry} :
    a ∈ customersOf es ↔ ∃ e ∈ es, e.customer = a := by
  have hfold : ∀ ids : List CustomerId,
      a ∈ es.foldl (fun acc e => insertAscending e.customer acc) ids ↔
        a ∈ ids ∨ ∃ e ∈ es, e.customer = a := by
    induction es with
    | nil => simp
    | cons e es ih =>
      intro ids
      rw [List.foldl_cons, ih, mem_insertAscending]
      simp only [List.mem_cons, exists_eq_or_imp, eq_comm (a := a)]
      rw [or_assoc, or_left_comm]
  rw [customersOf, hfold]
  simp

/-- What a purge does to sound tables, in the order in which it does it. -/
theorem without_withoutUnused {t : Tables} (h : t.Sound) (stale : Entry → Bool) :
    (t.without (t.entries.filter stale)).withoutUnused (customersOf (t.entries.filter stale)) =
      t.purged stale := by
  rw [h.without_filter]
  simp only [withoutUnused, purged, Tables.mk.injEq, and_true]
  refine List.filter_congr fun c _ => ?_
  have hstale : (customersOf (t.entries.filter stale)).contains c.id =
      t.entries.any fun e => e.customer == c.id && stale e := by
    rw [Bool.eq_iff_iff, List.contains_iff_mem, mem_customersOf]
    simp only [List.mem_filter, List.any_eq_true, Bool.and_eq_true, beq_iff_eq]
    exact exists_congr fun e => ⟨fun h => ⟨h.1.1, h.2, h.1.2⟩, fun h => ⟨⟨h.1, h.2.2⟩, h.2.1⟩⟩
  rw [hstale, List.any_filter, Bool.or_comm]
  simp only [Bool.and_comm]

/-! ## Work without mail -/

section
variable {α β : Type} {t : Tables} {out : List Mail}

/-- Something went wrong inside; the request is not to blame. -/
def Failure.Internal : Failure → Prop
  | .rejected _ => False
  | .store _ _ | .delivery _ _ => True

/-- Work sends nothing and ends with a value of which more is known, unless a failure inside or
a crash ends it. -/
def Quietly (out : List Mail) (V : α → Tables → Prop) : Post Failure α
  | .value a, u, out' => V a u ∧ out' = out
  | .error f, _, out' => f.Internal ∧ out' = out
  | .crash _, _, out' => out' = out

theorem Quietly.outbox_eq {V : α → Tables → Prop} {o : Outcome Failure α} {u : Tables}
    {out' : List Mail} (h : Quietly out V o u out') : out' = out := by
  cases o with
  | value a => exact h.2
  | error f => exact h.2
  | crash x => exact h

theorem quietly_bind {w : Work Failure α} {f : α → Work Failure β} {V : α → Tables → Prop}
    {V' : β → Tables → Prop} (hw : w.Ensures (Quietly out V) t out)
    (hf : ∀ a u, V a u → (f a).Ensures (Quietly out V') u out) :
    (w.bind f).Ensures (Quietly out V') t out := by
  refine ensures_bind_iff.mpr (hw.mono ?_)
  intro o u out' h
  cases o with
  | value a =>
    obtain ⟨hV, rfl⟩ := h
    exact hf a u hV
  | error e => exact h
  | crash x => exact h

theorem quietly_asking (step : String) (c : Call) :
    (asking step c).Ensures (Quietly out fun a u => (t.perform c).1 = .ok a ∧ u = (t.perform c).2)
      t out := by
  refine ensures_asking_iff.mpr ⟨?_, fun _ => ⟨trivial, rfl⟩, fun _ => rfl⟩
  cases (t.perform c).1 with
  | ok a => exact ⟨⟨rfl, rfl⟩, rfl⟩
  | error p => exact ⟨trivial, rfl⟩

/-- A loop changes the tables as its steps do one after the other. -/
theorem quietly_each {f : α → Work Failure Unit} {g : Tables → α → Tables}
    (hf : ∀ a t, (f a).Ensures (Quietly out fun _ u => u = g t a) t out) (as : List α) (t : Tables) :
    (each f as).Ensures (Quietly out fun _ u => u = as.foldl g t) t out := by
  induction as generalizing t with
  | nil => exact ⟨rfl, rfl⟩
  | cons a as ih =>
    refine quietly_bind (hf a t) ?_
    rintro _ u rfl
    exact ih (g t a)

/-! ## The purge -/

theorem foldl_without (es : List Entry) (t : Tables) :
    es.foldl (fun t e => t.without [e]) t = t.without es := by
  induction es generalizing t with
  | nil => exact t.without_nil.symm
  | cons e es ih => rw [List.foldl_cons, ih, without_append, List.singleton_append]

theorem foldl_withoutUnused (ids : List CustomerId) (t : Tables) :
    ids.foldl (fun t id => t.withoutUnused [id]) t = t.withoutUnused ids := by
  induction ids generalizing t with
  | nil => exact t.withoutUnused_nil.symm
  | cons id ids ih => rw [List.foldl_cons, ih, withoutUnused_append, List.singleton_append]

theorem quietly_removeStale (e : Entry) (t : Tables) :
    (removeStale e).Ensures (Quietly out fun _ u => u = t.without [e]) t out := by
  refine (quietly_asking _ (.deleteEntry e.id)).mono ?_
  rintro (_ | _ | _) u out' h
  · obtain ⟨⟨-, rfl⟩, rfl⟩ := h
    exact ⟨t.deleteEntry_eq_without e, rfl⟩
  · exact h
  · exact h

theorem quietly_removeIfUnused (id : CustomerId) (t : Tables) :
    (removeIfUnused id).Ensures (Quietly out fun _ u => u = t.withoutUnused [id]) t out := by
  refine quietly_bind (quietly_asking _ (.entriesOfCustomer id)) ?_
  rintro remaining u ⟨hremaining, hu⟩
  obtain rfl : u = t := hu
  obtain rfl := Except.ok.inj hremaining
  cases hfound : u.entries.filter fun e => e.customer == id with
  | cons e es => exact ⟨(withoutUnused_of_used hfound).symm, rfl⟩
  | nil =>
    refine (quietly_asking _ (.deleteCustomer id)).mono ?_
    rintro (_ | _ | _) v out' h
    · obtain ⟨⟨-, rfl⟩, rfl⟩ := h
      exact ⟨deleteCustomer_of_unused hfound, rfl⟩
    · exact h
    · exact h

theorem quietly_removeAll (es : List Entry) (t : Tables) :
    (removeAll es).Ensures (Quietly out fun n u =>
      n = es.length ∧ u = (t.without es).withoutUnused (customersOf es)) t out := by
  cases es with
  | nil => exact ⟨⟨rfl, by rw [without_nil]; exact t.withoutUnused_nil.symm⟩, rfl⟩
  | cons e es =>
    refine quietly_bind (quietly_each quietly_removeStale (e :: es) t) ?_
    rintro _ u rfl
    have hunused : ((each removeIfUnused (customersOf (e :: es))).bind
        fun _ => done (e :: es).length).Ensures (Quietly out fun n u => n = (e :: es).length ∧
          u = (t.without (e :: es)).withoutUnused (customersOf (e :: es)))
        (t.without (e :: es)) out := by
      refine quietly_bind (quietly_each quietly_removeIfUnused _ _) ?_
      rintro _ u rfl
      rw [foldl_withoutUnused]
      exact ⟨⟨rfl, rfl⟩, rfl⟩
    rw [foldl_without]
    exact hunused

theorem quietly_purge (h : t.Sound) (now : Timestamp) (threshold : Time.Span) :
    (purge now threshold).Ensures (Quietly out fun n u =>
      n = (t.entries.filter fun e => e.insertTime.before (Timestamp.cutoff now threshold)).length ∧
        u = t.purged fun e => e.insertTime.before (Timestamp.cutoff now threshold)) t out := by
  refine quietly_bind (quietly_asking _ (.entriesBefore (Timestamp.cutoff now threshold))) ?_
  rintro es u ⟨hes, rfl⟩
  obtain rfl := Except.ok.inj hes
  rw [← without_withoutUnused h]
  exact quietly_removeAll _ u

theorem quietly_purgeMailing (h : t.Sound) (m : MailingId) (now : Timestamp)
    (threshold : Time.Span) :
    (purgeMailing m now threshold).Ensures (Quietly out fun n u =>
      n = (t.entries.filter fun e =>
        e.mailing == m && e.insertTime.before (Timestamp.cutoff now threshold)).length ∧
      u = t.purged fun e =>
        e.mailing == m && e.insertTime.before (Timestamp.cutoff now threshold)) t out := by
  refine quietly_bind
    (quietly_asking _ (.entriesOfMailingBefore m (Timestamp.cutoff now threshold))) ?_
  rintro es u ⟨hes, rfl⟩
  obtain rfl := Except.ok.inj hes
  rw [← without_withoutUnused h]
  exact quietly_removeAll _ u

/-! ## A purge that nothing disturbs -/

theorem ascending_insertAscending {id : CustomerId} {ids : List CustomerId}
    (h : ids.Pairwise fun a b => a.val < b.val) :
    (insertAscending id ids).Pairwise fun a b => a.val < b.val := by
  induction ids with
  | nil => exact List.pairwise_singleton _ _
  | cons b ids ih =>
    obtain ⟨hb, hids⟩ := List.pairwise_cons.mp h
    unfold insertAscending
    split
    · next hlt =>
      refine List.pairwise_cons.mpr ⟨?_, h⟩
      intro a ha
      rcases List.mem_cons.mp ha with rfl | ha
      · exact hlt
      · exact Int.lt_trans hlt (hb a ha)
    · next hge =>
      split
      · exact h
      · next hne =>
        refine List.pairwise_cons.mpr ⟨?_, ih hids⟩
        intro a ha
        rcases mem_insertAscending.mp ha with rfl | ha
        · have hval : a.val ≠ b.val := fun heq => hne (by cases a; cases b; exact congrArg _ heq)
          omega
        · exact hb a ha

theorem ascending_customersOf (es : List Entry) :
    (customersOf es).Pairwise fun a b => a.val < b.val := by
  have hfold : ∀ ids : List CustomerId, (ids.Pairwise fun a b => a.val < b.val) →
      (es.foldl (fun acc e => insertAscending e.customer acc) ids).Pairwise
        fun a b => a.val < b.val := by
    induction es with
    | nil => exact fun ids h => h
    | cons e es ih => exact fun ids h => ih _ (ascending_insertAscending h)
  exact hfold [] .nil

variable (out) in
/-- A loop succeeds if each step does and leaves what the others need. -/
theorem eval_each {f : α → Work Failure Unit} {g : Tables → α → Tables}
    {needs : List α → Tables → Prop}
    (step : ∀ a as t, needs (a :: as) t →
      (f a).eval t out = (.value (), g t a, out) ∧ needs as (g t a))
    (as : List α) (t : Tables) (h : needs as t) :
    (each f as).eval t out = (.value (), as.foldl g t, out) ∧ needs [] (as.foldl g t) := by
  induction as generalizing t with
  | nil => exact ⟨rfl, h⟩
  | cons a as ih =>
    obtain ⟨hfirst, hrest⟩ := step a as t h
    rw [each, eval_bind, hfirst]
    exact ih (g t a) hrest

/-- The entries can be taken out one by one: they are there, and no two are the same. -/
structure Removable (es : List Entry) (t : Tables) : Prop where
  sound : t.Sound
  stored : ∀ e ∈ es, e ∈ t.entries
  apart : es.Pairwise fun a b => a.id ≠ b.id

theorem Removable.tail {e : Entry} {es : List Entry} (h : Removable (e :: es) t) :
    Removable es (t.without [e]) := by
  obtain ⟨hother, hapart⟩ := List.pairwise_cons.mp h.apart
  refine ⟨t.deleteEntry_eq_without e ▸ h.sound.deleteEntry e.id, ?_, hapart⟩
  intro f hf
  refine List.mem_filter.mpr ⟨h.stored f (List.mem_cons_of_mem _ hf), ?_⟩
  simpa using (hother f hf).symm

theorem Removable.perform {e : Entry} {es : List Entry} (h : Removable (e :: es) t) :
    t.perform (.deleteEntry e.id) = (.ok (), t.without [e]) := by
  have hone := length_filter_eq_one h.sound.entry_ids (h.stored e List.mem_cons_self)
  have hanswer : (t.deleteEntry e.id).1 = .ok () := by
    simp only [deleteEntry]
    rw [length_sub_length_filter (fun e : Entry => e.id), hone]
    rfl
  exact Prod.ext hanswer (t.deleteEntry_eq_without e)

theorem Removable.removeStale {e : Entry} {es : List Entry} (h : Removable (e :: es) t) :
    (removeStale e).eval t out = (.value (), t.without [e], out) ∧
      Removable es (t.without [e]) := by
  refine ⟨?_, h.tail⟩
  rw [Service.removeStale, eval_asking, h.perform]
  rfl

/-- The customers can be looked at one by one: they are there, and each comes once. -/
structure Reviewable (ids : List CustomerId) (t : Tables) : Prop where
  sound : t.Sound
  stored : ∀ id ∈ ids, ∃ c ∈ t.customers, c.id = id
  ascend : ids.Pairwise fun a b => a.val < b.val

theorem Reviewable.removeIfUnused {id : CustomerId} {ids : List CustomerId}
    (h : Reviewable (id :: ids) t) :
    (removeIfUnused id).eval t out = (.value (), t.withoutUnused [id], out) ∧
      Reviewable ids (t.withoutUnused [id]) := by
  obtain ⟨hother, hascend⟩ := List.pairwise_cons.mp h.ascend
  unfold Service.removeIfUnused
  cases hfound : t.entries.filter fun e => e.customer == id with
  | cons e es =>
    rw [withoutUnused_of_used hfound]
    refine ⟨(eval_bind _ _ _ _).trans ?_, h.sound, ?_, hascend⟩
    · rw [eval_asking, perform, hfound]
      rfl
    · exact fun j hj => h.stored j (List.mem_cons_of_mem _ hj)
  | nil =>
    obtain ⟨c, hc, rfl⟩ := h.stored id List.mem_cons_self
    have hunused : (t.entries.any fun e => e.customer == c.id) = false := by
      rw [List.any_eq_false]
      exact List.filter_eq_nil_iff.mp hfound
    have hanswer : (t.deleteCustomer c.id).1 = .ok () := by
      simp only [deleteCustomer, hunused, Bool.false_eq_true, if_false]
      rw [length_sub_length_filter (fun d : Customer => d.id),
        length_filter_eq_one h.sound.customer_ids hc]
      rfl
    rw [← deleteCustomer_of_unused hfound]
    refine ⟨(eval_bind _ _ _ _).trans ?_, h.sound.deleteCustomer c.id, ?_, hascend⟩
    · rw [eval_asking, perform, hfound]
      change (asking _ (.deleteCustomer c.id)).eval t out = _
      rw [eval_asking, perform, hanswer]
      rfl
    · intro j hj
      obtain ⟨d, hd, rfl⟩ := h.stored j (List.mem_cons_of_mem _ hj)
      have hne : d.id ≠ c.id := fun heq => by simpa [heq] using hother d.id hj
      rw [deleteCustomer_of_unused hfound]
      exact ⟨d, List.mem_filter.mpr ⟨hd, by simp [hne]⟩, rfl⟩

variable (out) in
theorem Removable.removeEach {es : List Entry} (h : Removable es t) :
    (each Service.removeStale es).eval t out = (.value (), t.without es, out) ∧
      Removable [] (t.without es) := by
  have heach := eval_each out (fun _ _ _ => Removable.removeStale) es t h
  rwa [foldl_without] at heach

/-- After the removal of entries their customers can be looked at. -/
theorem Removable.reviewable {es : List Entry} (h : Removable es t) :
    Reviewable (customersOf es) (t.without es) := by
  refine ⟨(h.removeEach []).2.sound, ?_, ascending_customersOf _⟩
  intro id hid
  obtain ⟨f, hf, rfl⟩ := mem_customersOf.mp hid
  exact h.sound.owned f (h.stored f hf)

theorem eval_removeAll {es : List Entry} (h : Removable es t) :
    (removeAll es).eval t out =
      (.value es.length, (t.without es).withoutUnused (customersOf es), out) := by
  cases es with
  | nil =>
    have hall : (t.without []).withoutUnused (customersOf []) = t := by
      rw [without_nil]
      exact t.withoutUnused_nil
    rw [hall]
    rfl
  | cons e es =>
    obtain ⟨hunused, -⟩ :=
      eval_each out (fun _ _ _ => Reviewable.removeIfUnused) _ _ h.reviewable
    rw [foldl_withoutUnused] at hunused
    have hlast : ((each removeIfUnused (customersOf (e :: es))).bind
        fun _ => done (e :: es).length).eval (t.without (e :: es)) out =
          (.value (e :: es).length,
            (t.without (e :: es)).withoutUnused (customersOf (e :: es)), out) := by
      rw [eval_bind, hunused]
      rfl
    refine (eval_bind _ _ _ _).trans ?_
    rw [(h.removeEach out).1]
    exact hlast

theorem Removable.filter (h : t.Sound) (p : Entry → Bool) : Removable (t.entries.filter p) t :=
  ⟨h, fun _ he => (List.mem_filter.mp he).1, h.entry_ids.filter _⟩

/-- A purge that nothing disturbs removes everything stale. -/
theorem eval_purge (h : t.Sound) (now : Timestamp) (threshold : Time.Span) :
    (purge now threshold).eval t out =
      (.value (t.entries.filter fun e =>
          e.insertTime.before (Timestamp.cutoff now threshold)).length,
        t.purged fun e => e.insertTime.before (Timestamp.cutoff now threshold), out) := by
  refine (eval_bind _ _ _ _).trans ?_
  rw [eval_asking, ← without_withoutUnused h]
  exact eval_removeAll (.filter h _)

end

end Service
end MailDispatch
