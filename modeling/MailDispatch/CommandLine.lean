import MailDispatch.Text.Pieces

/-! # The command line

Two options with values and two flags. The words are read from left to right. A
value that follows its option stays pending until the next known option or the end,
so that a word that is not known is reported first.
-/
namespace MailDispatch
open Text

structure CommandLine where
  files : List String := []
  logLevel : Option String := none
  deriving DecidableEq, Repr

namespace CommandLine

inductive Choice where
  | configFile
  | logLevel
  deriving DecidableEq, Repr

inductive Flag where
  | help
  | version
  deriving DecidableEq, Repr

inductive Stop where
  | help
  | version
  | unknown (word : String)
  | valueMissing (o : Choice)
  | valueUnwanted (value : String) (f : Flag)
  | repeated (o : Choice)
  deriving DecidableEq, Repr

def Choice.shown : Choice → String
  | .configFile => "--config-file <CONFIG_FILES>"
  | .logLevel => "--log-level <LOG_LEVEL>"

def Flag.shown : Flag → String
  | .help => "--help"
  | .version => "--version"

def Flag.stop : Flag → Stop
  | .help => .help
  | .version => .version

def Stop.message : Stop → String
  | .help | .version => ""
  | .unknown word => "error: unexpected argument '" ++ word ++ "' found"
  | .valueMissing o =>
    "error: a value is required for '" ++ o.shown ++ "' but none was supplied"
  | .valueUnwanted value f =>
    "error: unexpected value '" ++ value ++ "' for '" ++ f.shown ++
      "' found; no more were expected"
  | .repeated o => "error: the argument '" ++ o.shown ++ "' cannot be used multiple times"

def Stop.exitCode : Stop → Nat
  | .help | .version => 0
  | _ => 2

/-- What is printed on request instead of starting. -/
def Stop.page : Stop → List String
  | .help =>
    ["Mailing dispatch service", "", "Usage: mailman [OPTIONS]", "", "Options:",
      "      --config-file <CONFIG_FILES>  Comma-separated list of JSON configuration files, applied in order",
      "      --log-level <LOG_LEVEL>       Default log level; \x60RUST_LOG\x60 takes precedence [default: info]",
      "  -h, --help                        Print help",
      "  -V, --version                     Print version"]
  | .version => ["mailman 0.1.0"]
  | _ => []

def level (c : CommandLine) : String := c.logLevel.getD "info"

/-- A word that begins with two dashes: its name and the value after an equals sign. -/
def long? (word : List Char) : Option (List Char × Option (List Char)) :=
  match word with
  | '-' :: '-' :: rest =>
    let name := rest.takeWhile (· ≠ '=')
    match rest.dropWhile (· ≠ '=') with
    | _ :: value => some (name, some value)
    | [] => some (name, none)
  | _ => none

/-- The letters after a single dash. -/
def letters? : List Char → Option (List Char)
  | '-' :: c :: rest => if c = '-' then none else some (c :: rest)
  | _ => none

inductive Known where
  | choice (o : Choice)
  | flag (f : Flag)

def known? (name : String) : Option Known :=
  if name = "config-file" then some (.choice .configFile)
  else if name = "log-level" then some (.choice .logLevel)
  else if name = "help" then some (.flag .help)
  else if name = "version" then some (.flag .version)
  else none

def flagOf? (c : Char) : Option Flag :=
  if c = 'h' then some .help else if c = 'V' then some .version else none

/-- An option that was met, and its value as far as it was. -/
abbrev Pending := Option (Choice × Option String)

def accept (c : CommandLine) (o : Choice) (value : Option String) : Except Stop CommandLine :=
  match o, value with
  | o, none => .error (.valueMissing o)
  | .configFile, some v =>
    let files := (split ',' v.toList).map String.ofList
    if files.contains "" then .error (.valueMissing .configFile)
    else .ok { c with files := c.files ++ files }
  | .logLevel, some v =>
    match c.logLevel with
    | some _ => .error (.repeated .logLevel)
    | none => .ok { c with logLevel := some v }

def resolve (c : CommandLine) : Pending → Except Stop CommandLine
  | none => .ok c
  | some (o, value) => accept c o value

/-- The first thing that the letters of a word ask for. -/
def shortStop (c : CommandLine) (p : Pending) (letter : Char) : Stop :=
  match flagOf? letter with
  | none => .unknown (String.ofList ['-', letter])
  | some f =>
    match resolve c p with
    | .ok _ => f.stop
    | .error s => s

def waiting : Pending → Option Choice
  | some (o, none) => some o
  | _ => none

def longWord (c : CommandLine) (p : Pending) (name : List Char) (value : Option (List Char)) :
    Except Stop (CommandLine × Pending) :=
  let name := String.ofList name
  match known? name, value with
  | none, _ => .error (.unknown ("--" ++ name))
  | some (.flag f), some v => .error (.valueUnwanted (String.ofList v) f)
  | some (.flag f), none => do
    let _ ← resolve c p
    throw f.stop
  | some (.choice o), some v => do
    let c ← resolve c p
    let c ← accept c o (some (String.ofList v))
    return (c, none)
  | some (.choice o), none => do
    let c ← resolve c p
    return (c, some (o, none))

def words (c : CommandLine) (p : Pending) : List String → Except Stop CommandLine
  | [] => resolve c p
  | w :: rest =>
    if w = "--" then
      match rest with
      | [] => resolve c p
      | x :: _ => .error (.unknown x)
    else
      match long? w.toList with
      | some (name, value) => do
        let (c, p) ← longWord c p name value
        words c p rest
      | none =>
        match letters? w.toList with
        | some (letter :: _) => .error (shortStop c p letter)
        | _ =>
          match waiting p with
          | some o => words c (some (o, some w)) rest
          | none => .error (.unknown w)

def parse (ws : List String) : Except Stop CommandLine := words {} none ws

end CommandLine
end MailDispatch
