import MailDispatch.CommandLine
import MailDispatch.Log.Filter
import MailDispatch.Settings.Layers
import MailDispatch.Store.Backends
import MailDispatch.Timeline.Control

/-! # Starting the program

The command line names the files with the settings. With valid settings the program
opens its store, takes its port, and starts the server and the cleanup job. The first
of these that fails ends it.
-/
namespace MailDispatch.Program
open Text Store

structure Surroundings where
  files : String → Option Octets
  /-- The log filter of the environment. -/
  filter : Option String := none
  taken : Nat → Bool := fun _ => false
  reachable : Bool := true
  /-- What the monotonic clock shows. -/
  clock : Nat
  wallClock : Time.Timestamp
  operationId : String

inductive Failure where
  | settings (p : Settings.Problem)
  | database (p : Store.Problem)
  | port (number : Nat)
  | handle (r : Shutdown.Refusal)

def Failure.text : Failure → String
  | .settings _ => "loading configuration"
  | .database _ => "connecting to postgres"
  | .port number => "binding port " ++ Numeral.text number
  | .handle r => r.message

def Failure.report (f : Failure) : String := "Error: " ++ f.text

def Failure.exitCode (_ : Failure) : Nat := 1

def event (message : String) (fields : List (String × Log.Value)) : Log.Event :=
  { level := .info, part := .program, message, fields }

def loadedEvent (s : Settings) : Log.Event :=
  event "configuration loaded" [("settings", .text s.text)]

def inMemoryEvent : Log.Event := event "using in-memory storage" []

def address (port : Nat) : String := "0.0.0.0:" ++ Numeral.text port

def listeningEvent (port : Nat) : Log.Event :=
  event "http server listening" [("address", .text (address port))]

structure Running where
  settings : Settings
  timeline : Timeline Memory
  /-- The number of the server among the activities. -/
  server : Nat

/-- How far the program has come: it serves, or it has given up with what it has logged. -/
inductive Started where
  | serving (r : Running)
  | failed (f : Failure) (log : List Log.Record)

def serverName : String := "http server"

def startActivities (s : Settings) (reachable : Bool) (tl : Timeline Memory) :
    Except Shutdown.Refusal Running := do
  let (serverHandle, tl) ← tl.newHandle serverName
  let (server, tl) := tl.startServer serverHandle s.serverTimeout reachable
  let (jobHandle, tl) ← tl.newHandle Cleanup.jobName
  let (_, tl) :=
    tl.startJob jobHandle Cleanup.jobName s.cleanupPeriod (.cleanup s.stalenessThreshold)
  return ⟨s, tl.settle, server⟩

def serve (w : Surroundings) (s : Settings) (tl : Timeline Memory) : Started :=
  if w.taken s.server.port then .failed (.port s.server.port) tl.state.log
  else
    let tl := tl.log (listeningEvent s.server.port)
    match startActivities s w.reachable tl with
    | .ok r => .serving r
    | .error r => .failed (.handle r) tl.state.log

/-- The program with its settings. A database is never within its reach. -/
def withSettings (w : Surroundings) (s : Settings) : Started :=
  let tl : Timeline Memory :=
    { now := w.clock
      coordinator := { timeout := s.shutdownTimeout }
      backend := Memory.backend
      state := {}
      wallClock := w.wallClock
      operationId := w.operationId }
  let tl := tl.log (loadedEvent s)
  match s.global.storage with
  | .inMemory => serve w s (tl.log inMemoryEvent)
  | .postgres => .failed (.database connectProblem) tl.state.log

def withCommandLine (w : Surroundings) (c : CommandLine) : Started :=
  match Settings.load w.files c.files with
  | .ok s => withSettings w s
  | .error p => .failed (.settings p) []

def filterOf (w : Surroundings) (c : CommandLine) : Log.Filter :=
  Log.Filter.choose w.filter c.level

/-- Starts the program with the words of a command line, unless these ask for something else or
cannot be used. -/
def start (w : Surroundings) (words : List String) :
    Except CommandLine.Stop (Log.Filter × Started) :=
  (CommandLine.parse words).map fun c => (filterOf w c, withCommandLine w c)

end MailDispatch.Program
