import MailDispatch.Proofs.Work.Telling
import MailDispatch.Service.Purge
import MailDispatch.Service.Entries
import MailDispatch.Service.Sending

/-! # What the service tells the log

Each unit of work of the service reports events of a few kinds. Any property of these kinds is one of
all that the unit reports, whatever the store and the mail carrier answer.
-/
namespace MailDispatch.Service
open Store Work Mailing Time

variable {Q : Log.Event → Prop}

theorem tells_asking (step : String) (c : Call) : (asking step c).Tells Q :=
  (Tells.ask c).mapError

/-! ## Creating and removing -/

theorem tells_createCustomer (created : ∀ c, Q (customerCreated c)) (email : String) :
    (createCustomer email).Tells Q := by
  rintro (p | c)
  · dsimp only
    split
    · exact Tells.bind (tells_asking _ _) fun c => ⟨created c, trivial⟩
    · trivial
  · trivial

theorem tells_customerFor (created : ∀ c, Q (customerCreated c)) (email : String) :
    (customerFor email).Tells Q := by
  rintro (p | c)
  · dsimp only
    split
    · exact tells_createCustomer created email
    · trivial
  · trivial

theorem tells_refuseDuplicate (e : NewEntry) : (refuseDuplicate e).Tells Q := by
  refine Tells.bind (tells_asking _ _) ?_
  rintro (_ | ⟨f, fs⟩)
  · trivial
  · trivial

theorem tells_remove (removing : ∀ id, Q (removing id)) (id : MailingEntryId) :
    (remove id).Tells Q := by
  refine ⟨removing id, ?_⟩
  rintro (p | u)
  · dsimp only
    split
    · trivial
    · trivial
  · trivial

/-! ## Purging -/

section
variable (purged : ∀ n, Q (purgedEvent n)) (removing : ∀ id, Q (removingCustomer id))

include removing in
theorem tells_removeIfUnused (id : CustomerId) : (removeIfUnused id).Tells Q := by
  refine Tells.bind (tells_asking _ _) ?_
  rintro (_ | ⟨e, es⟩)
  · exact ⟨removing id, tells_asking _ (.deleteCustomer id)⟩
  · trivial

include purged removing

theorem tells_removeAll (es : List Entry) : (removeAll es).Tells Q := by
  cases es with
  | nil => trivial
  | cons e es =>
    have hunused : ((each removeIfUnused (customersOf (e :: es))).bind
        fun _ => done (e :: es).length).Tells Q :=
      (Tells.each (tells_removeIfUnused removing) _).bind fun _ => trivial
    have hreported : (log (purgedEvent (e :: es).length)
        ((each removeIfUnused (customersOf (e :: es))).bind
          fun _ => done (e :: es).length)).Tells Q := ⟨purged _, hunused⟩
    have hstale : ∀ f : Entry, (removeStale f).Tells Q := fun f => tells_asking _ _
    exact (Tells.each hstale _).bind fun _ => hreported

theorem tells_purge (now : Timestamp) (threshold : Time.Span) : (purge now threshold).Tells Q :=
  Tells.bind (tells_asking _ _) (tells_removeAll purged removing)

theorem tells_purgeMailing (m : MailingId) (now : Timestamp) (threshold : Time.Span) :
    (purgeMailing m now threshold).Tells Q :=
  Tells.bind (tells_asking _ _) (tells_removeAll purged removing)

end

/-! ## Sending -/

section
variable {emailer : Emailer} (delivering : ∀ m, (emailer m).Tells Q)
  (removing : ∀ e, Q (removingSent e))
include delivering removing

theorem tells_sendEntry (e : Entry) : (sendEntry emailer e).Tells Q := by
  refine Tells.bind (tells_asking _ _) fun c => Tells.bind (delivering _).mapError fun _ => ?_
  exact ⟨removing e, tells_asking _ (.deleteEntry e.id)⟩

theorem tells_sendMailing (m : MailingId) : (sendMailing emailer m).Tells Q := by
  refine Tells.bind (tells_asking _ _) ?_
  rintro (_ | ⟨e, es⟩)
  · trivial
  · exact (Tells.each (tells_sendEntry delivering removing) (e :: es)).bind fun _ => trivial

end

theorem tells_carrier (m : Mail) : (carrier m).Tells Q := by
  rintro (e | u)
  · trivial
  · trivial

end MailDispatch.Service
