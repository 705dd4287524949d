import MailDispatch.Number.Shortest
import MailDispatch.Settings.Path
import MailDispatch.Text.Quoted
import MailDispatch.Time.Span

/-! # Settings

The settings of the program, their defaults, and how they are read from a tree. An
integer may be given as a number, a truth value or a text; it is cut to the width of
its setting. A text may be given as any scalar. Sections may be tables, or lists
with the values in the order of the fields.
-/
namespace MailDispatch
open Text Number

inductive Storage where
  | postgres
  | inMemory
  deriving DecidableEq, Repr

structure GlobalSettings where
  shutdownTimeoutSeconds : Nat := 30
  storage : Storage := .postgres
  deriving DecidableEq, Repr

structure ServerSettings where
  port : Nat := 8080
  shutdownTimeoutSeconds : Nat := 30
  deriving DecidableEq, Repr

structure PostgresSettings where
  host : String := "localhost"
  port : Nat := 5432
  user : String := "mailman"
  password : String := ""
  database : String := "mailman"
  defaultTimeoutSeconds : Nat := 30
  maxConnections : Nat := 10
  deriving DecidableEq, Repr

structure Settings where
  global : GlobalSettings := {}
  server : ServerSettings := {}
  postgres : PostgresSettings := {}
  stalenessThresholdSeconds : Nat := 7200
  cleanupPeriodSeconds : Nat := 300
  deriving DecidableEq, Repr

namespace Settings

inductive Problem where
  | fileMissing
  /-- A file is no document. -/
  | malformed
  /-- A value cannot become the integer or the text that is wanted. -/
  | wrongType
  /-- A section or a choice has the wrong form. -/
  | wrongForm
  | invalid (message : String)
  deriving DecidableEq, Repr

/-! ## Scalars -/

/-- The greatest value of a setting of 64 bits. -/
def greatest : Nat := 18446744073709551615

def lowered (s : String) : String := String.ofList (s.toList.map Char.toLower)

def textNatural (s : String) : Except Problem Nat :=
  let word := lowered s
  if word = "true" ∨ word = "on" ∨ word = "yes" then .ok 1
  else if word = "false" ∨ word = "off" ∨ word = "no" then .ok 0
  else
    match Numeral.read .nat64 s.toList with
    | .ok n => .ok n.toNat
    | .error _ => .error .wrongType

/-- The natural that a value stands for: fractions are rounded and kept within 64 bits. -/
def natural : Tree → Except Problem Nat
  | .whole n => if 0 ≤ n then .ok n.toNat else .error .wrongType
  | .fraction x =>
    .ok (if x.negative then 0 else min x.roundedMagnitude greatest)
  | .truth b => .ok (if b then 1 else 0)
  | .text s => textNatural s
  | .absent | .list _ | .table _ => .error .wrongType

/-- The natural of a setting with the given number of bits. -/
def word (bits : Nat) (t : Tree) : Except Problem Nat := (natural t).map (· % Nat.pow 2 bits)

def textOf : Tree → Except Problem String
  | .text s => .ok s
  | .whole n => .ok (Numeral.text n)
  | .fraction x => .ok (String.ofList (Shortest.positional x))
  | .truth b => .ok (if b then "true" else "false")
  | .absent | .list _ | .table _ => .error .wrongType

def storageNamed (name : String) : Except Problem Storage :=
  if name = "postgres" then .ok .postgres
  else if name = "in_memory" then .ok .inMemory
  else .error .wrongForm

def storageOf : Tree → Except Problem Storage
  | .text s => storageNamed s
  | .table [(key, _)] => storageNamed key
  | _ => .error .wrongForm

/-! ## Sections -/

/-- The values of a section, by name or by place. -/
inductive Section where
  | named (members : List (String × Tree))
  | placed (items : List Tree)

def Section.of : Tree → Except Problem Section
  | .table ms => .ok (.named ms)
  | .list ts => .ok (.placed ts)
  | _ => .error .wrongForm

def Section.get? (s : Section) (name : String) (place : Nat) : Option Tree :=
  match s with
  | .named ms => ms.lookup name
  | .placed ts => ts[place]?

/-- The value of a field, or its default where it is not given. -/
def Section.field {α : Type} (s : Section) (name : String) (place : Nat) (default : α)
    (read : Tree → Except Problem α) : Except Problem α :=
  match s.get? name place with
  | some t => read t
  | none => .ok default

def readGlobal (t : Tree) : Except Problem GlobalSettings := do
  let s ← Section.of t
  let d : GlobalSettings := {}
  return {
    shutdownTimeoutSeconds := ←
      s.field "shutdown_timeout_seconds" 0 d.shutdownTimeoutSeconds (word 64)
    storage := ← s.field "storage" 1 d.storage storageOf }

def readServer (t : Tree) : Except Problem ServerSettings := do
  let s ← Section.of t
  let d : ServerSettings := {}
  return {
    port := ← s.field "port" 0 d.port (word 16)
    shutdownTimeoutSeconds := ←
      s.field "shutdown_timeout_seconds" 1 d.shutdownTimeoutSeconds (word 64) }

def readPostgres (t : Tree) : Except Problem PostgresSettings := do
  let s ← Section.of t
  let d : PostgresSettings := {}
  return {
    host := ← s.field "host" 0 d.host textOf
    port := ← s.field "port" 1 d.port (word 16)
    user := ← s.field "user" 2 d.user textOf
    password := ← s.field "password" 3 d.password textOf
    database := ← s.field "database" 4 d.database textOf
    defaultTimeoutSeconds := ←
      s.field "default_timeout_seconds" 5 d.defaultTimeoutSeconds (word 64)
    maxConnections := ← s.field "max_connections" 6 d.maxConnections (word 32) }

/-- A section whose only field is a number of seconds. -/
def readSeconds (name : String) (default : Nat) (t : Tree) : Except Problem Nat := do
  (← Section.of t).field name 0 default (word 64)

def ofTree (t : Tree) : Except Problem Settings := do
  let s ← Section.of t
  let d : Settings := {}
  return {
    global := ← s.field "global" 0 d.global readGlobal
    server := ← s.field "http_server" 1 d.server readServer
    postgres := ← s.field "postgres" 2 d.postgres readPostgres
    stalenessThresholdSeconds := ←
      s.field "stale_mailing_entry_remover" 3 d.stalenessThresholdSeconds
        (readSeconds "staleness_threshold_seconds" d.stalenessThresholdSeconds)
    cleanupPeriodSeconds := ←
      s.field "mailing_entry_cleanup_job" 4 d.cleanupPeriodSeconds
        (readSeconds "period_seconds" d.cleanupPeriodSeconds) }

def Problem.message : Problem → String
  | .invalid m => "invalid configuration: " ++ m
  | _ => ""

def check (s : Settings) : Except Problem Settings :=
  if s.cleanupPeriodSeconds = 0 then
    .error (.invalid "mailing_entry_cleanup_job.period_seconds must be greater than 0")
  else .ok s

/-! ## Times -/

def shutdownTimeout (s : Settings) : Time.Span := .ofSeconds s.global.shutdownTimeoutSeconds
def serverTimeout (s : Settings) : Time.Span := .ofSeconds s.server.shutdownTimeoutSeconds
def postgresTimeout (s : Settings) : Time.Span := .ofSeconds s.postgres.defaultTimeoutSeconds
def stalenessThreshold (s : Settings) : Time.Span := .ofSeconds s.stalenessThresholdSeconds
def cleanupPeriod (s : Settings) : Time.Span := .ofSeconds s.cleanupPeriodSeconds

end Settings
end MailDispatch
