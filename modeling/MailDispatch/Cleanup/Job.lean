import MailDispatch.Cleanup.Schedule
import MailDispatch.Service.Purge
import MailDispatch.Work.Transaction

/-! # The cleanup job

Each execution purges all stale entries in one transaction.
-/
namespace MailDispatch.Cleanup
open Time Work Service

def jobName : String := "stale mailing entry cleanup"

def cleanedEvent (removed : Nat) : Log.Event :=
  { level := .info, part := .cleanup, message := "stale mailing entry cleanup finished"
    fields := [("removed", .whole removed)] }

def resultOf : Ended Failure Nat → Result
  | .value _ => .success
  | .failed f => .error f.text
  | .crashed c => .crash c
  | .notBegun _ => .error Transaction.notBegunText
  | .notCommitted _ => .error Transaction.notCommittedText

variable {σ : Type}

def purgeOnce (b : Backend σ) (operation : Log.Operation) (now : Timestamp) (threshold : Time.Span)
    (s : σ) : Result × σ :=
  let (ended, s) := Transaction.within b (some operation) (purge now threshold) s
  let s := match ended with
    | .value removed => b.log ⟨cleanedEvent removed, some operation⟩ s
    | _ => s
  (resultOf ended, s)

/-- Reports an execution that failed. -/
def report (log : Log.Record → σ → σ) (name : String) (operation : Log.Operation) (r : Result)
    (s : σ) : σ :=
  match resultEvent? name r with
  | some e => log ⟨e, some operation⟩ s
  | none => s

def runOnce (b : Backend σ) (operationId : String) (now : Timestamp) (threshold : Time.Span)
    (s : σ) : σ :=
  let operation := (Log.Operation.start operationId).named jobName
  let (result, s) := purgeOnce b operation now threshold s
  report b.log jobName operation result s

end MailDispatch.Cleanup
