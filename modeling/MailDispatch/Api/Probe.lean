import MailDispatch.Api.Handling
import MailDispatch.Api.Routes
import MailDispatch.Text.Quoted

/-! # Probes

Three endpoints that show what every request gets from its handling: one tells its
operation, one crashes and one fails.
-/
namespace MailDispatch.Api
open Http Text Work

inductive Probe where
  | context
  | boom
  | fail
  deriving DecidableEq, Repr

def probeRoutes : List (Route Probe) :=
  [⟨[.text "context"], "GET", .context⟩,
    ⟨[.text "boom", .hole "kind", .hole "message"], "GET", .boom⟩,
    ⟨[.text "fail", .hole "error"], "GET", .fail⟩]

def crashOf (kind message : String) : Crash :=
  if kind = "str" ∨ kind = "string" then .text message
  else if kind = "boxed" then .boxed message
  else .code 7

def shownOperation (o : Log.Operation) : String :=
  o.correlationId ++ " " ++
    match o.name with
    | some n => "Some(" ++ Quoted.text n ++ ")"
    | none => "None"

/-- Handles a probe. The error that a segment describes is read by the given function. -/
def probeHandler {σ : Type} (errorOf : String → Error) : Handler σ := fun r o s =>
  match route probeRoutes r with
  | .found .context _ => (⟨.value (.plain (shownOperation o)), o⟩, s)
  | .found .boom segments =>
    let message := segments.getLastD ""
    if message = "unreachable" then (⟨.value (.empty 200), o⟩, s)
    else (⟨.crash (crashOf (segments.headD "") message), o⟩, s)
  | .found .fail segments => (⟨.error (errorOf (segments.headD "")), o⟩, s)
  | other => (⟨.value (other.refusal?.getD (.empty 404)), o⟩, s)

end MailDispatch.Api
