import MailDispatch.Proofs.Service.Tidy

/-! # What creation leaves alone

Creating an entry stores what is new. It takes no entry out and sends no mail, however it
ends.
-/
namespace MailDispatch
open Store Mailing Work

variable {ε δ α β : Type}

/-- Work that takes no entry out and sends nothing. -/
def Work.Adds (w : Work ε α) : Prop :=
  ∀ t out, w.Ensures (fun _ u out' => t.entries ⊆ u.entries ∧ out' = out) t out

namespace Work.Adds

theorem done (a : α) : (Work.done a : Work ε α).Adds := fun _ _ => ⟨List.Subset.refl _, rfl⟩

theorem fail (e : ε) : (Work.fail e : Work ε α).Adds := fun _ _ => ⟨List.Subset.refl _, rfl⟩

theorem call {c : Call} {next : Answered c → Work ε α}
    (hc : ∀ t : Tables, t.entries ⊆ (t.perform c).2.entries) (hnext : ∀ r, (next r).Adds) :
    (Work.call c next).Adds := by
  intro t out
  refine ⟨(hnext _ _ out).mono ?_, fun p => hnext _ t out, fun _ => ⟨List.Subset.refl _, rfl⟩⟩
  rintro o u out' ⟨hentries, rfl⟩
  exact ⟨List.Subset.trans (hc t) hentries, rfl⟩

theorem bind {w : Work ε α} {f : α → Work ε β} (h : w.Adds) (hf : ∀ a, (f a).Adds) :
    (w.bind f).Adds := by
  intro t out
  refine ensures_bind_iff.mpr ((h t out).mono ?_)
  rintro o u out' ⟨hentries, rfl⟩
  cases o with
  | value a =>
    refine (hf a u out').mono ?_
    rintro o v out'' ⟨hentries', rfl⟩
    exact ⟨List.Subset.trans hentries hentries', rfl⟩
  | error e => exact ⟨hentries, rfl⟩
  | crash x => exact ⟨hentries, rfl⟩

end Work.Adds

namespace Service

theorem adds_asking (step : String) {c : Call}
    (hc : ∀ t : Tables, t.entries ⊆ (t.perform c).2.entries) : (asking step c).Adds := by
  intro t out
  refine ensures_asking_iff.mpr ⟨⟨hc t, rfl⟩, fun _ => ?_, fun _ => ?_⟩ <;>
    exact ⟨List.Subset.refl _, rfl⟩

theorem subset_insertCustomer (t : Tables) (email : String) :
    t.entries ⊆ (t.insertCustomer email).2.entries := by
  unfold Tables.insertCustomer
  split <;> exact List.Subset.refl _

theorem subset_insertEntry (t : Tables) (e : NewEntry) :
    t.entries ⊆ (t.insertEntry e).2.entries := by
  unfold Tables.insertEntry
  split
  · exact List.subset_append_left _ _
  · exact List.Subset.refl _

theorem adds_createCustomer (email : String) : (createCustomer email).Adds := by
  refine .call (fun t => List.Subset.refl t.entries) ?_
  rintro (p | c)
  · dsimp only
    split
    · have hinsert := adds_asking "error creating customer" (c := .insertCustomer email)
        fun t => subset_insertCustomer t email
      exact hinsert.bind fun c => Work.Adds.done (ε := Failure) c
    · exact .fail _
  · exact .fail _

theorem adds_customerFor (email : String) : (customerFor email).Adds := by
  refine .call (fun t => List.Subset.refl t.entries) ?_
  rintro (p | c)
  · dsimp only
    split
    · exact adds_createCustomer email
    · exact .fail _
  · exact .done c

theorem adds_refuseDuplicate (e : NewEntry) : (refuseDuplicate e).Adds := by
  refine .bind (adds_asking _ fun t => List.Subset.refl t.entries) ?_
  rintro (_ | ⟨f, fs⟩)
  · exact .done ()
  · exact .fail _

theorem adds_insert (e : NewEntry) : (insert e).Adds := by
  have hinsert := adds_asking "error creating mailing entry" (c := .insertEntry e)
    fun t => subset_insertEntry t e
  exact hinsert.bind fun e => Work.Adds.done (ε := Failure) e

theorem adds_create (d : Draft) : (create d).Adds := by
  unfold create
  cases d.check with
  | error r => exact .fail _
  | ok u =>
    refine (adds_customerFor d.email).bind fun c => ?_
    exact (adds_refuseDuplicate _).bind fun _ => adds_insert _

end Service
end MailDispatch
