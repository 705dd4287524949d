import MailDispatch.Json.Token

/-! # Passing over a value

The value of a member that nobody asks for is only passed over: its brackets must
match and its tokens must be well formed, but its texts need not be texts and its
numbers may have any size. The open brackets are kept on a stack, so that a value
may be nested to any depth.
-/
namespace MailDispatch.Json
open Text

/-- Passes over an escape after its backslash; a number is not looked at. -/
def skipEscape : Octets → Except Problem Octets
  | [] => .error (.here .endInString [])
  | b :: rest =>
    if (letterEscape? b).isSome then .ok rest
    else if b = 117 then
      match hexEscape rest with
      | .ok (_, rest) => .ok rest
      | .error p => .error p
    else .error (.here .invalidEscape rest)

/-- Passes over a text after its opening quote; each step takes at least one octet. -/
def skipTextFuel : Nat → Octets → Except Problem Octets
  | 0, _ => .error (.here .endInString [])
  | _ + 1, [] => .error (.here .endInString [])
  | fuel + 1, b :: rest =>
    if b = 34 then .ok rest
    else if b = 92 then
      match skipEscape rest with
      | .ok rest => skipTextFuel fuel rest
      | .error p => .error p
    else if b < 32 then .error (.here .controlCharacter (b :: rest))
    else skipTextFuel fuel rest

def skipText (s : Octets) : Except Problem Octets := skipTextFuel (s.length + 1) s

def skipExponent (s : Octets) : Except Problem Octets :=
  match (exponentSign s).2 with
  | b :: rest =>
    if Octets.isDigit b then .ok (rest.dropWhile Octets.isDigit)
    else .error (.here .invalidNumber rest)
  | [] => .error (.here .invalidNumber [])

def skipExponentPart : Octets → Except Problem Octets
  | b :: rest => if isExponentMark b then skipExponent rest else .ok (b :: rest)
  | [] => .ok []

/-- Passes over what follows the digits of the whole part. -/
def skipNumberTail : Octets → Except Problem Octets
  | 46 :: rest =>
    match rest with
    | b :: after =>
      if Octets.isDigit b then skipExponentPart (after.dropWhile Octets.isDigit)
      else .error (.ahead .invalidNumber rest)
    | [] => .error (.ahead .invalidNumber [])
  | s => skipExponentPart s

def skipUnsigned : Octets → Except Problem Octets
  | [] => .error (.here .invalidNumber [])
  | b :: rest =>
    if b = 48 then
      match rest with
      | d :: _ =>
        if Octets.isDigit d then .error (.ahead .invalidNumber rest) else skipNumberTail rest
      | [] => .ok []
    else if Octets.isDigit b then skipNumberTail (rest.dropWhile Octets.isDigit)
    else .error (.here .invalidNumber rest)

inductive Bracket where
  | list
  | object
  deriving DecidableEq, Repr

def Bracket.closing : Bracket → UInt8
  | .list => 93
  | .object => 125

def Bracket.expectedEnd : Bracket → Code
  | .list => .expectedListEnd
  | .object => .expectedObjectEnd

def Bracket.ended : Bracket → Code
  | .list => .endInList
  | .object => .endInObject

inductive Opening where
  | scalar (rest : Octets)
  | bracket (b : Bracket) (rest : Octets)

def opening (s : Octets) : Except Problem Opening :=
  match skipBlanks s with
  | [] => .error (.here .endInValue [])
  | b :: rest =>
    if b = 110 then (null rest).map .scalar
    else if b = 116 then (yes rest).map .scalar
    else if b = 102 then (no rest).map .scalar
    else if b = 45 then (skipUnsigned rest).map .scalar
    else if Octets.isDigit b then (skipUnsigned (b :: rest)).map .scalar
    else if b = 34 then (skipText rest).map .scalar
    else if b = 91 then .ok (.bracket .list rest)
    else if b = 123 then .ok (.bracket .object rest)
    else .error (.ahead .expectedValue (b :: rest))

def colon (s : Octets) : Except Problem Octets :=
  match skipBlanks s with
  | [] => .error (.here .endInObject [])
  | b :: rest => if b = 58 then .ok rest else .error (.ahead .expectedColon (b :: rest))

def skipKey (s : Octets) : Except Problem Octets :=
  match skipBlanks s with
  | [] => .error (.here .endInObject [])
  | b :: rest =>
    if b = 34 then do colon (← skipText rest)
    else .error (.ahead .keyMustBeText (b :: rest))

def Bracket.skipKey : Bracket → Octets → Except Problem Octets
  | .list, s => .ok s
  | .object, s => Json.skipKey s

/-- Where the reader stands: before a value, after an opening bracket, or after a value. -/
inductive Stage where
  | value
  | opened
  | closed
  deriving DecidableEq, Repr

/-- Passes over a value within brackets, innermost first. Two steps take at least one octet. -/
def skipNested : Nat → Stage → List Bracket → Octets → Except Problem Octets
  | 0, _, _, s => .error (.here .endInValue s)
  | fuel + 1, .value, open_, s =>
    match opening s with
    | .error p => .error p
    | .ok (.scalar rest) => skipNested fuel .closed open_ rest
    | .ok (.bracket b rest) => skipNested fuel .opened (b :: open_) rest
  | _ + 1, _, [], s => .ok s
  | fuel + 1, stage, b :: open_, s =>
    match skipBlanks s with
    | [] => .error (.here b.ended [])
    | c :: rest =>
      if c = b.closing then skipNested fuel .closed open_ rest
      else if stage = .closed then
        if c = 44 then
          match b.skipKey rest with
          | .ok rest => skipNested fuel .value (b :: open_) rest
          | .error p => .error p
        else .error (.ahead b.expectedEnd (c :: rest))
      else
        match b.skipKey (c :: rest) with
        | .ok rest => skipNested fuel .value (b :: open_) rest
        | .error p => .error p

def skipValue (s : Octets) : Except Problem Octets :=
  skipNested (2 * s.length + 2) .value [] s

end MailDispatch.Json
