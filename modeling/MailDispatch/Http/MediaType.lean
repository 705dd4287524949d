/-! # Media types

A media type is a type, a subtype and parameters. A subtype may end in a suffix,
which follows its last plus sign. Only what a body's type says about its format
matters here, but the whole text has to be well formed.
-/
namespace MailDispatch.Http

/-- A media type in lower case, without its parameters. -/
structure MediaType where
  main : String
  sub : String
  suffix : Option String
  deriving DecidableEq, Repr

def isTokenChar (c : Char) : Bool :=
  c.isAlphanum || "!#$%&'*+-.^_\x60|~".toList.contains c

/-- Characters that may stand between quotes, apart from the closing quote. -/
def isQuotedChar (c : Char) : Bool := 32 ≤ c.toNat && c.toNat != 127

/-- What follows a quoted value: blanks, then the end or the next parameter. -/
def afterQuoted : List Char → Option (List Char)
  | [] => some []
  | ' ' :: rest => afterQuoted rest
  | ';' :: rest => some rest
  | _ :: _ => none

/-- The text after a quoted value, whose first character may be a quote. -/
def quotedValue : List Char → Option (List Char)
  | [] => none
  | c :: rest =>
    if isQuotedChar c then
      match rest.dropWhile fun d => isQuotedChar d && d != '"' with
      | '"' :: rest => afterQuoted rest
      | _ => none
    else none

/-- The text after the value of a parameter and the semicolon behind it. -/
def parameterValue : List Char → Option (List Char)
  | '"' :: rest => quotedValue rest
  | s =>
    match s.dropWhile isTokenChar with
    | [] => some []
    | ';' :: rest => if s.head? = some ';' then none else some rest
    | _ => none

/-- The text after the name of a parameter and its equals sign. -/
def parameterName (s : List Char) : Option (List Char) :=
  match s.dropWhile isTokenChar with
  | '=' :: rest => if s.head? = some '=' then none else some rest
  | _ => none

/-- Whether a text is a sequence of parameters; each takes at least one character. -/
def areParameters : Nat → List Char → Bool
  | _, [] => true
  | 0, _ => false
  | fuel + 1, ' ' :: rest => areParameters fuel rest
  | fuel + 1, s =>
    match (parameterName s).bind parameterValue with
    | some rest => areParameters fuel rest
    | none => false

def lowered (s : List Char) : String := String.ofList (s.map Char.toLower)

/-- The suffix of a subtype and what stands before it. A plus sign in front is no mark. -/
def splitSuffix (sub : List Char) : List Char × Option (List Char) :=
  let after := (sub.reverse.takeWhile (· ≠ '+')).reverse
  let before := sub.take (sub.length - after.length - 1)
  if before.isEmpty || !sub.contains '+' then (sub, none) else (before, some after)

namespace MediaType

def ofParts (main sub : List Char) : MediaType :=
  let (before, suffix) := splitSuffix sub
  ⟨lowered main, lowered before, suffix.map lowered⟩

def parse? (text : String) : Option MediaType :=
  let s := text.toList
  let main := s.takeWhile isTokenChar
  match s.dropWhile isTokenChar with
  | '/' :: rest =>
    if main.isEmpty then none
    else
      let sub := rest.takeWhile isTokenChar
      match rest.dropWhile isTokenChar with
      | [] => some (ofParts main sub)
      | c :: parameters =>
        if c = ';' ∧ ¬ sub.isEmpty ∧ areParameters parameters.length parameters then
          some (ofParts main sub)
        else none
  | _ => none

def isDocument (m : MediaType) : Bool :=
  m.main == "application" && (m.sub == "json" || m.suffix == some "json")

end MediaType
end MailDispatch.Http
