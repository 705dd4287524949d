import MailDispatch.Proofs.Api.Traffic
import MailDispatch.Proofs.Service.Tidy

/-! # Tables under traffic

Every unit of work of the service keeps the tables sound and tidy. So they are, with all
the faults that traffic may bring.
-/
namespace MailDispatch.Api
open Http Mailing Service Store Text Work

variable {emailer : Emailer}

theorem Keeping.of_perform {P : Tables → Prop} (hP : ∀ t, P t → ∀ c, P (t.perform c).2)
    (emailer : Emailer) : Keeping emailer P where
  create _ := keeps_of_perform hP _
  remove _ := keeps_of_perform hP _
  send _ := keeps_of_perform hP _
  purge _ _ := keeps_of_perform hP _
  purgeMailing _ _ _ := keeps_of_perform hP _

theorem keeping_sound (emailer : Emailer) : Keeping emailer Tables.Sound :=
  .of_perform (fun _ ht c => ht.perform c) emailer

theorem keeping_tidy (hemailer : emailer.Apart) : Keeping emailer Tables.Tidy := by
  refine ⟨keeps_create, ?_, ?_, ?_, ?_⟩
  · intro id
    exact keeps_tidy (asks_remove id)
  · intro m
    exact keeps_tidy (asks_sendMailing hemailer m)
  · intro now threshold
    exact keeps_tidy (asks_purge now threshold)
  · intro m now threshold
    exact keeps_tidy (asks_purgeMailing m now threshold)

/-- Whatever requests come, whatever fails and in whatever order: no two stored entries are the
same, all are complete, and each stored email is an address and that of one customer. -/
theorem traffic_keeps_tables_tidy (hemailer : emailer.Apart) (threshold : Time.Span)
    (es : List Traffic.Event) :
    let t := (Traffic.run emailer threshold {} es).2.rehearsal.store.committed
    (t.entries.Pairwise fun a b => a.toNewEntry ≠ b.toNewEntry) ∧
      (∀ e ∈ t.entries,
        e.mailing.val ≠ 0 ∧ allBlank e.title = false ∧ allBlank e.content = false) ∧
      (∀ c ∈ t.customers, isAddress c.email.toList = true) ∧
      ∀ c ∈ t.customers, (t.customers.filter fun d => d.email == c.email) = [c] := by
  intro t
  have hsound : t.Sound :=
    (Traffic.rests_run threshold (keeping_sound emailer) es (Traffic.rests_empty .empty)).holds
  have htidy : t.Tidy :=
    (Traffic.rests_run threshold (keeping_tidy hemailer) es (Traffic.rests_empty .empty)).holds
  refine ⟨htidy.distinct, htidy.complete, htidy.addressed, ?_⟩
  intro c hc
  exact hsound.filter_email hc

/-- A request with a document for its body. -/
def posted (path document : String) : Request :=
  { method := "POST"
    target := .parse path
    headers := [("content-type", "application/json")]
    body := Octets.ofString document }

/-- An entry is created while a request to send it waits, when its customer seems to be gone;
and once more when it is sent. -/
def repeatedCreation : List Traffic.Event :=
  let creation := posted "/api/messages"
    "[7, \"anna@example.com\", \"Hello\", \"World\", \"2024-05-01T10:00:00Z\"]"
  [.arrives "a" creation .earliest, .arrives "b" (posted "/api/messages/send" "[7]") .earliest,
    .configure (some [⟨.customerByEmail, 1, none, .problem (.noRow "find customer by email")⟩]) {},
    .arrives "c" creation .earliest, .proceeds 0, .arrives "d" creation .earliest]

theorem repeated_creation_stays_tidy :
    carrier.Apart ∧
      (Traffic.run carrier (.ofSeconds 60) {} repeatedCreation).1.map (·.map (·.status)) =
        [some 200, none, none, some 400, some 200, some 200] ∧
      let t := (Traffic.run carrier (.ofSeconds 60) {} repeatedCreation).2.rehearsal.store.committed
      t.entries.map (·.id.val) = [2] ∧
        (t.entries.Pairwise fun a b => a.toNewEntry ≠ b.toNewEntry) ∧
        (∀ e ∈ t.entries,
          e.mailing.val ≠ 0 ∧ allBlank e.title = false ∧ allBlank e.content = false) ∧
        (∀ c ∈ t.customers, isAddress c.email.toList = true) ∧
        ∀ c ∈ t.customers, (t.customers.filter fun d => d.email == c.email) = [c] :=
  ⟨carrier_apart, by decide +kernel, by decide +kernel,
    traffic_keeps_tables_tidy carrier_apart (.ofSeconds 60) repeatedCreation⟩

end MailDispatch.Api
