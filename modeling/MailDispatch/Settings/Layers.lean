import MailDispatch.Settings.Basic
import MailDispatch.Settings.Document
import MailDispatch.Text.Pieces

/-! # Layers of settings

The defaults lie at the bottom, and every file is laid over what is there.
-/
namespace MailDispatch.Settings
open Text

/-! ## Where a file is looked for

The path of a file of settings is looked up in a directory. Points and repeated
slashes in it say nothing, but one at the end asks for a directory, which is no file.
A file that is not found is looked for once more with the usual ending at its name.
-/

def pathNames (path : List Char) : List (List Char) :=
  (split '/' path).filter fun p => !p.isEmpty && p != ['.']

def asksForDirectory (path : List Char) : Bool :=
  match (split '/' path).getLast? with
  | some p => p.isEmpty || p == ['.']
  | none => true

/-- The name with the usual ending, if the path ends in the name of a file. -/
def withEnding (names : List (List Char)) : List (List Char) :=
  match names.getLast? with
  | some p => if p = ['.', '.'] then [] else [join '/' names ++ ".json".toList]
  | none => []

/-- The names under which a file is looked for, in this order. A path from the root leaves the
directory. -/
def candidates (path : String) : List String :=
  match path.toList with
  | '/' :: _ => []
  | s =>
    let names := pathNames s
    ((if asksForDirectory s then [] else [join '/' names]) ++ withEnding names).map String.ofList

/-! ## Loading -/

def nat (n : Nat) : Tree := .whole n

def Storage.name : Storage → String
  | .postgres => "postgres"
  | .inMemory => "in_memory"

def toTree (s : Settings) : Tree :=
  .table
    [("global", .table
        [("shutdown_timeout_seconds", nat s.global.shutdownTimeoutSeconds),
          ("storage", .text (Storage.name s.global.storage))]),
      ("http_server", .table
        [("port", nat s.server.port),
          ("shutdown_timeout_seconds", nat s.server.shutdownTimeoutSeconds)]),
      ("postgres", .table
        [("host", .text s.postgres.host), ("port", nat s.postgres.port),
          ("user", .text s.postgres.user), ("password", .text s.postgres.password),
          ("database", .text s.postgres.database),
          ("default_timeout_seconds", nat s.postgres.defaultTimeoutSeconds),
          ("max_connections", nat s.postgres.maxConnections)]),
      ("stale_mailing_entry_remover", .table
        [("staleness_threshold_seconds", nat s.stalenessThresholdSeconds)]),
      ("mailing_entry_cleanup_job", .table [("period_seconds", nat s.cleanupPeriodSeconds)])]

def defaults : Tree := toTree {}

def readFile (files : String → Option Octets) (path : String) : Except Problem Tree :=
  match (candidates path).findSome? files with
  | none => .error .fileMissing
  | some content =>
    match readDocument content with
    | .ok t => .ok t
    | .error _ => .error .malformed

/-- Lays the documents of files over a tree, the first at the bottom. -/
def layered (files : String → Option Octets) : Tree → List String → Except Problem Tree
  | t, [] => .ok t
  | t, p :: ps => do layered files (overlay t (← readFile files p)) ps

def load (files : String → Option Octets) (paths : List String) : Except Problem Settings := do
  check (← ofTree (← layered files defaults paths))

/-! ## The text of settings -/

def namedField (name value : String) : String := name ++ ": " ++ value

def structureText (name : String) (fields : List String) : String :=
  name ++ " \x7b " ++ ", ".intercalate fields ++ " \x7d"

def number (n : Nat) : String := Numeral.text n

/-- The settings for the log, without the password. -/
def text (s : Settings) : String :=
  structureText "Settings"
    [namedField "global" (structureText "GlobalSettings"
        [namedField "shutdown_timeout_seconds" (number s.global.shutdownTimeoutSeconds),
          namedField "storage" (match s.global.storage with
            | .postgres => "Postgres"
            | .inMemory => "InMemory")]),
      namedField "http_server" (structureText "HttpServerSettings"
        [namedField "port" (number s.server.port),
          namedField "shutdown_timeout_seconds" (number s.server.shutdownTimeoutSeconds)]),
      namedField "postgres" (structureText "PostgresSettings"
        [namedField "host" (Quoted.text s.postgres.host),
          namedField "port" (number s.postgres.port),
          namedField "user" (Quoted.text s.postgres.user),
          namedField "password" (Quoted.text "<redacted>"),
          namedField "database" (Quoted.text s.postgres.database),
          namedField "default_timeout_seconds" (number s.postgres.defaultTimeoutSeconds),
          namedField "max_connections" (number s.postgres.maxConnections)]),
      namedField "stale_mailing_entry_remover" (structureText "StaleMailingEntryRemoverSettings"
        [namedField "staleness_threshold_seconds" (number s.stalenessThresholdSeconds)]),
      namedField "mailing_entry_cleanup_job" (structureText "MailingEntryCleanupJobSettings"
        [namedField "period_seconds" (number s.cleanupPeriodSeconds)])]

end MailDispatch.Settings
