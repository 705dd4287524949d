/-! # Log events

An event has a level, the part of the program that reports it, a message and
fields. Events of one operation carry what is known about the operation.
-/
namespace MailDispatch.Log

inductive Level where
  | error
  | warn
  | info
  | debug
  | trace
  deriving DecidableEq, Repr

/-- How much a level lets pass: the higher, the more. -/
def Level.rank : Level → Nat
  | .error => 1
  | .warn => 2
  | .info => 3
  | .debug => 4
  | .trace => 5

def Level.name : Level → String
  | .error => "ERROR"
  | .warn => "WARN"
  | .info => "INFO"
  | .debug => "DEBUG"
  | .trace => "TRACE"

inductive Part where
  | program
  | requests
  | failures
  | messages
  | server
  | creation
  | customers
  | removal
  | sending
  | purge
  | delivery
  | transactions
  | pool
  | cleanup
  | shutdown
  | schedule
  | signals
  | operations
  deriving DecidableEq, Repr

def Part.target : Part → String
  | .program => "mailman"
  | .requests => "mailman_api::middleware"
  | .failures => "mailman_api::app::errors"
  | .messages => "mailman_api::app::routes::messages"
  | .server => "mailman_api::server"
  | .creation => "mailman_mailing::creator"
  | .customers => "mailman_mailing::customer"
  | .removal => "mailman_mailing::remover"
  | .sending => "mailman_mailing::sender"
  | .purge => "mailman_mailing::stale_remover"
  | .delivery => "mailman_mailing::email"
  | .transactions => "mailman_infra::persistence::transaction"
  | .pool => "mailman_infra::persistence::postgres"
  | .cleanup => "mailman_infra::jobs::cleanup"
  | .shutdown => "mailman_lifecycle::shutdown"
  | .schedule => "mailman_lifecycle::scheduler"
  | .signals => "mailman_lifecycle::signal"
  | .operations => "mailman_observability::context"

inductive Value where
  | text (s : String)
  | whole (n : Int)
  deriving DecidableEq, Repr

structure Event where
  level : Level
  part : Part
  message : String
  fields : List (String × Value) := []
  deriving DecidableEq, Repr

end MailDispatch.Log
