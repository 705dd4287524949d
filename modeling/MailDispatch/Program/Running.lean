import MailDispatch.Api.Messages
import MailDispatch.Program.Startup

/-! # The running program

It answers requests until a signal asks it to end. Then it shuts its activities down
in order and ends.
-/
namespace MailDispatch.Program
open Http Store

def caughtEvent (signal : String) : Log.Event :=
  { level := .info, part := .signals, message := "caught signal, shutting down"
    fields := [("signal", .text signal)] }

def endingEvent (signal : String) : Log.Event :=
  event "starting graceful shutdown" [("signal", .text signal)]

def completeEvent : Log.Event := event "shutdown complete" []

namespace Running

/-- The application: mail is only logged. -/
def app (r : Running) : Api.App Memory :=
  { backend := Memory.backend
    emailer := Service.logOnly
    threshold := r.settings.stalenessThreshold
    now := r.timeline.wallClock }

def accepts (r : Running) : Bool :=
  ((r.timeline.server? r.server).map Shutdown.Server.accepts).getD false

def respond (operationId : String) (request : Request) (r : Running) : Option Response × Running :=
  if r.accepts then
    let (response, state) := r.app.respond operationId request r.timeline.state
    (some response, { r with timeline := { r.timeline with state } })
  else (none, r)

def pass (span : Nat) (wallClock : Time.Timestamp) (r : Running) : Running :=
  { r with timeline := { r.timeline.sleep span with wallClock } }

def stop (signal : String) (r : Running) : Running :=
  let tl := (r.timeline.log (caughtEvent signal)).log (endingEvent signal)
  let (finished, tl) := tl.cancel
  { r with timeline := if finished then tl.log completeEvent else tl }

def log (r : Running) : List Log.Record := r.timeline.state.log

end Running
end MailDispatch.Program
