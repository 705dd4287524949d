import MailDispatch.Log.Line
import MailDispatch.Program.Running
import Std.Time.DateTime.Timestamp

/-! # The command

The first words of the program choose its settings. Requests come in on standard
input, one a line: a method, a target and perhaps a body. The end of the input ends the
program.
-/
namespace MailDispatch.Command
open Text Http

/-- The request on a line. A line with a body gets the media type of a document. -/
def requestOf (line : String) : Request :=
  let (method, rest) := span line.toList
  let (target, body) := span rest
  { method := String.ofList method
    target := Target.parse (String.ofList target)
    headers := if body.isEmpty then [] else [("content-type", "application/json")]
    body := Octets.ofString (String.ofList body) }
where
  span (s : List Char) : List Char × List Char :=
    (s.takeWhile (· ≠ ' '), (s.dropWhile (· ≠ ' ')).drop 1)

def answerLine : Option Response → String
  | some r => Numeral.text r.status ++ " " ++ r.body
  | none => "closed"

def now : IO Time.Timestamp := do
  let nanos := (← Std.Time.Timestamp.now).toNanosecondsSinceUnixEpoch.toInt
  let fraction := (nanos % 1000000000).toNat
  return (Time.Timestamp.make? (nanos / 1000000000) fraction).getD .earliest

def newOperationId : IO String := do
  let mut digits := []
  for _ in [0:10] do
    digits := Nat.digitChar (← IO.rand 0 15) :: digits
  return String.ofList digits

def contentOf (path : String) : IO (Option (String × Octets)) := do
  try
    let bytes ← IO.FS.readBinFile path
    return some (path, bytes.toList)
  catch _ => return none

def surroundings (words : List String) : IO Program.Surroundings := do
  let paths := match CommandLine.parse words with
    | .ok c => c.files.flatMap Settings.candidates
    | .error _ => []
  let contents ← paths.filterMapM contentOf
  return { files := fun path => contents.lookup path
           filter := ← IO.getEnv "RUST_LOG"
           clock := ← IO.monoNanosNow
           wallClock := ← now
           operationId := ← newOperationId }

def printLog (f : Log.Filter) (log : List Log.Record) (done : Nat) : IO Nat := do
  let time := (← now).written
  for r in Log.Filter.apply f (log.drop done) do
    IO.println (String.ofList (r.line time))
  return log.length

partial def serve (f : Log.Filter) (done : Nat) (r : Program.Running) : IO Unit := do
  let line ← (← IO.getStdin).getLine
  let r := r.pass ((← IO.monoNanosNow) - r.timeline.now) (← now)
  if line.isEmpty then
    let _ ← printLog f (r.stop "SIGTERM").log done
  else
    let request := requestOf (String.ofList (line.toList.filter fun c => c != '\n' && c != '\r'))
    let (response, r) := r.respond (← newOperationId) request
    let done ← printLog f r.log done
    IO.println (answerLine response)
    serve f done r

def run (words : List String) : IO UInt32 := do
  match Program.start (← surroundings words) words with
  | .error stop =>
    for line in stop.page do
      IO.println line
    unless stop.message.isEmpty do
      IO.eprintln stop.message
    return UInt32.ofNat stop.exitCode
  | .ok (f, .failed failure log) =>
    let _ ← printLog f log 0
    IO.eprintln failure.report
    return UInt32.ofNat failure.exitCode
  | .ok (f, .serving r) =>
    let done ← printLog f r.log 0
    serve f done r
    return 0

end MailDispatch.Command

def main (words : List String) : IO UInt32 := MailDispatch.Command.run words
