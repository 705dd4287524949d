import MailDispatch.Shutdown.Coordinator

/-! # The server's shutdown

The server runs until it ends by itself or until shutdown is requested. Then it has
a limited time to finish what is in flight, after which it is given up. Either way
it reports that it is done.
-/
namespace MailDispatch.Shutdown
open Time

def shorter (a b : Span) : Span := if b.totalNanos < a.totalNanos then b else a

inductive ServerEnd where
  | fine
  | failed (error : String)
  deriving DecidableEq, Repr

inductive ServerPhase where
  | serving
  | draining (deadline : Nat)
  | stopped (result : ServerEnd)
  deriving DecidableEq, Repr

def drainingEvent (drain : Span) : Log.Event :=
  { level := .info, part := .server, message := "shutting down http server"
    fields := [("drain_timeout", .text drain.text)] }

def undrainedEvent : Log.Event :=
  { level := .warn, part := .server
    message := "http server did not drain in time, abandoning open connections" }

def stoppedEvent : Log.Event :=
  { level := .info, part := .server, message := "http server stopped" }

/-- Thirty years, after which a timer is over that is set to a time the clock cannot show. -/
def farFuture : Span := .ofSeconds (30 * 365 * 86400)

/-- When a timer is over that is set now. -/
def timerEnd (now : Nat) (s : Span) : Nat := (later? now s).getD (now + farFuture.totalNanos)

/-- What happens at a time, if anything does: the next phase and what is logged. `ended` says
how the server has finished, if it has, and `drain` is how long it may take for that. -/
def ServerPhase.poll (drain : Span) (signalled : Bool) (ended : Option ServerEnd) (now : Nat) :
    ServerPhase → Option (ServerPhase × List Log.Event)
  | .serving =>
    if signalled then some (.draining (timerEnd now drain), [drainingEvent drain])
    else ended.map fun e => (.stopped e, [stoppedEvent])
  | .draining deadline =>
    match ended with
    | some e => some (.stopped e, [stoppedEvent])
    | none =>
      if deadline ≤ now then some (.stopped .fine, [undrainedEvent, stoppedEvent])
      else none
  | .stopped _ => none

def ServerPhase.nextTime : ServerPhase → Option Nat
  | .draining deadline => some deadline
  | .serving | .stopped _ => none

def ServerPhase.result? : ServerPhase → Option ServerEnd
  | .stopped e => some e
  | .serving | .draining _ => none

structure Server where
  drain : Span
  phase : ServerPhase := .serving
  inFlight : Nat := 0
  /-- Whether clients can connect while it serves. -/
  reachable : Bool := true
  deriving DecidableEq, Repr

namespace Server

/-- Once shutdown is requested the server has finished when nothing is in flight. -/
def ended (s : Server) (signalled : Bool) : Option ServerEnd :=
  if signalled && s.inFlight == 0 then some .fine else none

def poll (s : Server) (signalled : Bool) (now : Nat) : Option (Server × List Log.Event) :=
  (s.phase.poll s.drain signalled (s.ended signalled) now).map fun (phase, events) =>
    ({ s with phase }, events)

def isStopped (s : Server) : Bool := s.phase.result?.isSome

def accepts (s : Server) : Bool := s.reachable && s.phase == .serving

end Server
end MailDispatch.Shutdown
