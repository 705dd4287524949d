import MailDispatch.Proofs.Service.Purging
import MailDispatch.Proofs.Work.Heeding

/-! # The services heed what goes wrong

A step of a service that goes wrong ends it with a failure inside. Only a missing row is awaited at
times: that of a customer who is not known yet, and that of an entry which is to be removed.
-/
namespace MailDispatch.Service
open Mailing Store Work

variable {awaited : Call → Problem → Bool}

theorem heeds_asking (step : String) (c : Call) : (asking step c).Heeds awaited Failure.Internal :=
  (Heeds.ask c).mapError fun _ _ => trivial

/-! ## Creation and removal -/

section
variable (unknown : ∀ email p, p.isNoRow = true → awaited (.customerByEmail email) p = true)
include unknown

theorem heeds_createCustomer (email : String) :
    (createCustomer email).Heeds awaited Failure.Internal := by
  refine ⟨fun p hp => ?_, ?_⟩
  · have hrow : ¬ p.isNoRow = true := fun h => Bool.false_ne_true (hp.symm.trans (unknown email p h))
    exact ⟨_, if_neg hrow, trivial⟩
  · rintro (p | c)
    · dsimp only
      split
      · exact (heeds_asking _ (.insertCustomer email)).bind fun _ => trivial
      · trivial
    · trivial

theorem heeds_customerFor (email : String) :
    (customerFor email).Heeds awaited Failure.Internal := by
  refine ⟨fun p hp => ?_, ?_⟩
  · have hrow : ¬ p.isNoRow = true := fun h => Bool.false_ne_true (hp.symm.trans (unknown email p h))
    exact ⟨_, if_neg hrow, trivial⟩
  · rintro (p | c)
    · dsimp only
      split
      · exact heeds_createCustomer unknown email
      · trivial
    · trivial

theorem heeds_create (d : Draft) : (create d).Heeds awaited Failure.Internal := by
  have hcheck : (ofExcept (d.check.mapError Failure.rejected)).Heeds awaited Failure.Internal := by
    cases d.check <;> trivial
  have hduplicate : ∀ e, (refuseDuplicate e).Heeds awaited Failure.Internal := fun e => by
    refine (heeds_asking _ (.duplicates e)).bind fun found => ?_
    cases found <;> trivial
  refine hcheck.bind fun _ => (heeds_customerFor unknown d.email).bind fun c => ?_
  refine (hduplicate _).bind fun _ => ?_
  exact (heeds_asking _ (.insertEntry (d.entryFor c.id))).bind fun _ => trivial

end

theorem heeds_remove {id : MailingEntryId}
    (missing : ∀ p, p.isNoRow = true → awaited (.deleteEntry id) p = true) :
    (remove id).Heeds awaited Failure.Internal := by
  refine ⟨fun p hp => ?_, ?_⟩
  · have hrow : ¬ p.isNoRow = true := fun h => Bool.false_ne_true (hp.symm.trans (missing p h))
    exact ⟨_, if_neg hrow, trivial⟩
  · rintro (p | u)
    · dsimp only
      split <;> trivial
    · trivial

/-! ## Purges -/

theorem heeds_removeIfUnused (id : CustomerId) :
    (removeIfUnused id).Heeds awaited Failure.Internal := by
  refine (heeds_asking _ (.entriesOfCustomer id)).bind fun remaining => ?_
  cases remaining with
  | nil => exact heeds_asking _ (.deleteCustomer id)
  | cons e es => trivial

theorem heeds_removeAll (entries : List Entry) :
    (removeAll entries).Heeds awaited Failure.Internal := by
  cases entries with
  | nil => trivial
  | cons e es =>
    have hremove : ∀ e, (removeStale e).Heeds awaited Failure.Internal :=
      fun e => heeds_asking _ (.deleteEntry e.id)
    have hunused : (log (purgedEvent (e :: es).length)
        ((each removeIfUnused (customersOf (e :: es))).bind
          fun _ => done (e :: es).length)).Heeds awaited Failure.Internal :=
      (Heeds.each heeds_removeIfUnused (customersOf (e :: es))).bind fun _ => trivial
    exact (Heeds.each hremove (e :: es)).bind fun _ => hunused

theorem heeds_purgeMailing (m : MailingId) (now : Time.Timestamp) (threshold : Time.Span) :
    (purgeMailing m now threshold).Heeds awaited Failure.Internal :=
  (heeds_asking _ _).bind heeds_removeAll

/-! ## Sending -/

theorem heeds_carrier (m : Mail) : (carrier m).Heeds awaited fun _ => True := by
  refine ⟨fun text => ⟨text, rfl, trivial⟩, ?_⟩
  rintro (text | u) <;> trivial

theorem heeds_delivery {emailer : Emailer} (h : emailer = carrier ∨ emailer = logOnly) (m : Mail) :
    (emailer m).Heeds awaited fun _ => True := by
  rcases h with rfl | rfl
  · exact heeds_carrier m
  · trivial

section
variable {emailer : Emailer} (h : ∀ m, (emailer m).Heeds awaited fun _ => True)
include h

theorem heeds_sendEntry (e : Entry) : (sendEntry emailer e).Heeds awaited Failure.Internal := by
  refine (heeds_asking _ (.customerById e.customer)).bind fun c => ?_
  refine ((h _).mapError fun _ _ => trivial).bind fun _ => ?_
  exact heeds_asking _ (.deleteEntry e.id)

theorem heeds_sendMailing (m : MailingId) :
    (sendMailing emailer m).Heeds awaited Failure.Internal := by
  refine (heeds_asking _ (.entriesOfMailing m)).bind fun entries => ?_
  cases entries with
  | nil => trivial
  | cons e es => exact (Heeds.each (heeds_sendEntry h) (e :: es)).bind fun _ => trivial

end

end MailDispatch.Service
