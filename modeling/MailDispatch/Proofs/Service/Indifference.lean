import MailDispatch.Proofs.Service.Purging
import MailDispatch.Proofs.Work.Alike

/-! # Services are indifferent to words

What a service does next may depend on the kind of a problem, since a missing row is no
failure to it, but never on the words of a problem, a refusal or a crash. Its own failures
carry these words on only as failures inside.
-/
namespace MailDispatch.Service
open Mailing Store Work

/-- The same rejection, or any two failures inside. -/
def Failure.Alike (f g : Failure) : Prop := f = g ∨ f.Internal ∧ g.Internal

theorem Failure.Alike.refl (f : Failure) : f.Alike f := .inl rfl

/-- Work that goes on alike and fails alike whatever the words are that it meets. -/
abbrev Indifferent {α : Type} (w : Work Failure α) : Prop := w.Alike Failure.Alike w

theorem indifferent_asking (step : String) (c : Call) : Indifferent (asking step c) :=
  (Alike.ask c).mapError fun _ _ _ => .inr ⟨trivial, trivial⟩

/-! ## Creation and removal -/

theorem indifferent_createCustomer (email : String) : Indifferent (createCustomer email) := by
  refine .call _ ?_
  rintro r s (c | hpq)
  · exact .fail (.refl _)
  · dsimp only
    rw [hpq.isNoRow_eq]
    split
    · refine (indifferent_asking _ (.insertCustomer email)).bind fun c => ?_
      exact (Alike.report _).bind fun _ => .done c
    · exact .fail (.inr ⟨trivial, trivial⟩)

theorem indifferent_customerFor (email : String) : Indifferent (customerFor email) := by
  refine .call _ ?_
  rintro r s (c | hpq)
  · exact .done c
  · dsimp only
    rw [hpq.isNoRow_eq]
    split
    · exact indifferent_createCustomer email
    · exact .fail (.inr ⟨trivial, trivial⟩)

theorem indifferent_refuseDuplicate (e : NewEntry) : Indifferent (refuseDuplicate e) := by
  refine (indifferent_asking _ (.duplicates e)).bind fun found => ?_
  cases found with
  | nil => exact .done ()
  | cons d ds => exact .fail (.refl _)

theorem indifferent_insert (e : NewEntry) : Indifferent (insert e) := by
  refine (indifferent_asking _ (.insertEntry e)).bind fun e => ?_
  exact (Alike.report _).bind fun _ => .done e

theorem indifferent_create (d : Draft) : Indifferent (create d) := by
  have hcheck : Indifferent (ofExcept (d.check.mapError Failure.rejected)) := by
    cases d.check with
    | ok u => exact .done u
    | error r => exact .fail (.refl _)
  refine hcheck.bind fun _ => ?_
  refine (indifferent_customerFor d.email).bind fun c => ?_
  exact (indifferent_refuseDuplicate _).bind fun _ => indifferent_insert _

theorem indifferent_remove (id : MailingEntryId) : Indifferent (remove id) := by
  refine (Alike.report _).bind fun _ => .call _ ?_
  rintro r s (u | hpq)
  · exact .done ()
  · dsimp only
    rw [hpq.isNoRow_eq]
    split
    · exact .fail (.refl _)
    · exact .fail (.inr ⟨trivial, trivial⟩)

/-! ## Purges -/

theorem indifferent_removeIfUnused (id : CustomerId) : Indifferent (removeIfUnused id) := by
  refine (indifferent_asking _ (.entriesOfCustomer id)).bind fun remaining => ?_
  cases remaining with
  | nil => exact (Alike.report _).bind fun _ => indifferent_asking _ (.deleteCustomer id)
  | cons e es => exact .done ()

theorem indifferent_removeAll (entries : List Entry) : Indifferent (removeAll entries) := by
  cases entries with
  | nil => exact .done 0
  | cons e es =>
    have hremove : ∀ e, Indifferent (removeStale e) := fun e => indifferent_asking _ (.deleteEntry e.id)
    refine (Alike.each hremove (e :: es)).bind fun _ => ?_
    refine (Alike.report _).bind fun _ => ?_
    exact (Alike.each indifferent_removeIfUnused _).bind fun _ => .done _

theorem indifferent_purgeMailing (m : MailingId) (now : Time.Timestamp) (threshold : Time.Span) :
    Indifferent (purgeMailing m now threshold) :=
  (indifferent_asking _ _).bind indifferent_removeAll

/-! ## Sending -/

theorem alike_carrier (m : Mail) : (carrier m).Alike anyText (carrier m) := by
  refine .deliver m ?_
  rintro r s (u | h)
  · exact .done ()
  · exact .fail h

theorem alike_delivery {emailer : Emailer} (h : emailer = carrier ∨ emailer = logOnly) (m : Mail) :
    (emailer m).Alike anyText (emailer m) := by
  rcases h with rfl | rfl
  · exact alike_carrier m
  · exact .report _

section
variable {emailer : Emailer} (h : ∀ m, (emailer m).Alike anyText (emailer m))
include h

theorem indifferent_sendEntry (e : Entry) : Indifferent (sendEntry emailer e) := by
  refine (indifferent_asking _ (.customerById e.customer)).bind fun c => ?_
  refine ((h _).mapError fun _ _ _ => .inr ⟨trivial, trivial⟩).bind fun _ => ?_
  exact (Alike.report _).bind fun _ => indifferent_asking _ (.deleteEntry e.id)

theorem indifferent_sendMailing (m : MailingId) : Indifferent (sendMailing emailer m) := by
  refine (indifferent_asking _ (.entriesOfMailing m)).bind fun entries => ?_
  cases entries with
  | nil => exact .fail (.refl _)
  | cons e es => exact (Alike.each (indifferent_sendEntry h) (e :: es)).bind fun _ => .done _

end

end MailDispatch.Service
