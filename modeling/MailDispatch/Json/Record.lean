import MailDispatch.Json.Skip
import MailDispatch.Number.Shortest
import MailDispatch.Text.Quoted
import MailDispatch.Time.Reader
import MailDispatch.Time.Written

/-! # Records

A record has named fields of whole numbers, texts and times. It is written as an
object, and read from an object with its members in any order or from a list of the
values in the order of the fields. Members with other names are passed over.
-/
namespace MailDispatch.Json
open Text Number Time

inductive Kind where
  | whole
  | text
  | time
  deriving DecidableEq, Repr

inductive Scalar where
  | whole (n : Int)
  | text (s : String)
  | time (t : Timestamp)
  deriving DecidableEq

structure Field where
  key : String
  kind : Kind
  fallback : Option Scalar

structure Shape where
  name : String
  fields : List Field

def Kind.wanted : Kind → String
  | .whole => "i64"
  | .text => "a string"
  | .time => "an RFC 3339 formatted date and time string"

/-! ## Values of the wrong kind -/

def Numeric.shown : Numeric → String
  | .whole n => "integer `" ++ Numeral.text n ++ "`"
  | .fraction x => "floating point `" ++ String.ofList (Shortest.scientific x) ++ "`"

def wrongKind (found wanted : String) : Code :=
  .data ("invalid type: " ++ found ++ ", expected " ++ wanted)

def unexpected (wanted : String) (s : Octets) : Problem :=
  let after (found : String) (r : Except Problem Octets) : Problem :=
    match r with
    | .ok rest => .here (wrongKind found wanted) rest
    | .error p => p
  match s with
  | [] => .ahead .expectedValue []
  | b :: rest =>
    match number? (b :: rest) with
    | some (.ok (n, rest)) => .here (wrongKind n.shown wanted) rest
    | some (.error p) => p
    | none =>
      if b = 110 then after "null" (null rest)
      else if b = 116 then after "boolean `true`" (yes rest)
      else if b = 102 then after "boolean `false`" (no rest)
      else if b = 34 then
        match text rest with
        | .ok (t, rest) => .here (wrongKind ("string " ++ Quoted.text t) wanted) rest
        | .error p => p
      else if b = 91 then .here (wrongKind "sequence" wanted) (b :: rest)
      else if b = 123 then .here (wrongKind "map" wanted) (b :: rest)
      else .ahead .expectedValue (b :: rest)

/-! ## Scalars -/

def wholeNumber (s : Octets) : Except Problem (Int × Octets) :=
  match number? s with
  | some (.ok (.whole n, rest)) =>
    if Numeral.Bounds.int64.Contains n then .ok (n, rest)
    else .error (.here (.data ("invalid value: " ++ (Numeric.whole n).shown ++ ", expected i64")) rest)
  | some (.ok (.fraction x, rest)) => .error (.here (wrongKind (Numeric.fraction x).shown "i64") rest)
  | some (.error p) => .error p
  | none => .error (unexpected Kind.whole.wanted s)

def textValue (k : Kind) (s : Octets) : Except Problem (String × Octets) :=
  match s with
  | b :: rest => if b = 34 then text rest else .error (unexpected k.wanted (b :: rest))
  | [] => .error (unexpected k.wanted [])

def Kind.read (k : Kind) (s : Octets) : Except Problem (Scalar × Octets) :=
  let s := skipBlanks s
  if s.isEmpty then .error (.here .endInValue [])
  else
    match k with
    | .whole => do
      let (n, rest) ← wholeNumber s
      return (.whole n, rest)
    | .text => do
      let (t, rest) ← textValue k s
      return (.text t, rest)
    | .time => do
      let (t, rest) ← textValue k s
      match Reader.read t.toList with
      | .ok t => return (.time t, rest)
      | .error p => throw (.here (.data p.message) rest)

/-! ## Objects -/

/-- The values found so far, in the order of the fields. -/
abbrev Slots := List (Option Scalar)

def Shape.index? (sh : Shape) (key : String) : Option Nat :=
  sh.fields.findIdx? fun f => f.key == key

/-- What is left after the closing bracket, if it comes next, for the position of a problem
with the record as a whole. -/
def pastClosing (b : Bracket) (s : Octets) : Octets :=
  match skipBlanks s with
  | c :: rest => if c = b.closing then rest else c :: rest
  | [] => []

/-- The values of all fields: those that were found, and the fallbacks of others. -/
def fill : List Field → Slots → Except Code (List Scalar)
  | [], _ => .ok []
  | f :: fs, slots =>
    match (slots.headD none).or f.fallback with
    | some v => (fill fs slots.tail).map (v :: ·)
    | none => .error (.data ("missing field `" ++ f.key ++ "`"))

/-- The start of the next member, after its opening quote; none at the closing bracket. -/
def nextKey (first : Bool) (s : Octets) : Except Problem (Option Octets) :=
  match skipBlanks s with
  | [] => .error (.here .endInObject [])
  | b :: rest =>
    if b = 125 then .ok none
    else if first then
      if b = 34 then .ok (some rest) else .error (.ahead .keyMustBeText (b :: rest))
    else if b = 44 then
      match skipBlanks rest with
      | [] => .error (.here .endInValue [])
      | c :: rest =>
        if c = 34 then .ok (some rest)
        else if c = 125 then .error (.ahead .trailingComma (c :: rest))
        else .error (.ahead .keyMustBeText (c :: rest))
    else .error (.ahead .expectedObjectEnd (b :: rest))

/-- Reads the value of a member into its slot, or passes over it. -/
def Shape.member (sh : Shape) (key : String) (slots : Slots) (s : Octets) :
    Except Problem (Slots × Octets) :=
  match sh.index? key with
  | none => do
    let rest ← within (.member key) (skipValue (← colon s))
    return (slots, rest)
  | some i =>
    match slots[i]?.join with
    | some _ => .error (.here (.data ("duplicate field `" ++ key ++ "`")) (pastClosing .object s))
    | none => do
      let kind := (sh.fields[i]?.map Field.kind).getD .text
      let (v, rest) ← within (.member key) (kind.read (← colon s))
      return (slots.set i (some v), rest)

/-- The members up to the closing bracket; each takes at least one octet. -/
def Shape.members (sh : Shape) : Nat → Bool → Slots → Octets → Except Problem (Slots × Octets)
  | 0, _, _, s => .error (.here .endInObject s)
  | fuel + 1, first, slots, s =>
    match nextKey first s with
    | .error p => .error p
    | .ok none => .ok (slots, s)
    | .ok (some s) => do
      let (key, s) ← text s
      let (slots, s) ← sh.member key slots s
      sh.members fuel false slots s

def Shape.object (sh : Shape) (s : Octets) : Except Problem (List Scalar × Octets) := do
  let (slots, s) ← sh.members (s.length + 1) true (sh.fields.map fun _ => none) s
  let rest := pastClosing .object s
  match fill sh.fields slots with
  | .ok vs => return (vs, rest)
  | .error code => throw (.here code rest)

/-! ## Lists -/

/-- The start of the next element; none at the closing bracket. -/
def nextElement (first : Bool) (s : Octets) : Except Problem (Option Octets) :=
  match skipBlanks s with
  | [] => .error (.here .endInList [])
  | b :: rest =>
    if b = 93 then .ok none
    else if first then .ok (some (b :: rest))
    else if b = 44 then
      match skipBlanks rest with
      | [] => .error (.here .endInValue [])
      | c :: rest =>
        if c = 93 then .error (.ahead .trailingComma (c :: rest)) else .ok (some (c :: rest))
    else .error (.ahead .expectedListEnd (b :: rest))

def Shape.tooShort (sh : Shape) (found : Nat) : Code :=
  let n := sh.fields.length
  .data ("invalid length " ++ Numeral.text found ++ ", expected struct " ++ sh.name ++ " with " ++
    Numeral.text n ++ (if n = 1 then " element" else " elements"))

def Shape.elements (sh : Shape) : List Field → Nat → Octets → Except Problem (List Scalar × Octets)
  | [], _, s => .ok ([], s)
  | f :: fs, i, s =>
    match nextElement (i == 0) s with
    | .error p => .error p
    | .ok none =>
      match f.fallback with
      | some v => (sh.elements fs (i + 1) s).map fun (vs, rest) => (v :: vs, rest)
      | none => .error (.here (sh.tooShort i) (pastClosing .list s))
    | .ok (some s) => do
      let (v, s) ← within (.element i) (f.kind.read s)
      let (vs, s) ← sh.elements fs (i + 1) s
      return (v :: vs, s)

def closeList (s : Octets) : Except Problem Octets :=
  match skipBlanks s with
  | [] => .error (.here .endInList [])
  | b :: rest =>
    if b = 93 then .ok rest
    else if b = 44 then
      let after := skipBlanks rest
      .error (.ahead (if after.head? = some 93 then .trailingComma else .trailingCharacters) after)
    else .error (.ahead .trailingCharacters (b :: rest))

def Shape.list (sh : Shape) (s : Octets) : Except Problem (List Scalar × Octets) := do
  let (vs, s) ← sh.elements sh.fields 0 s
  let rest ← closeList s
  return (vs, rest)

/-! ## Documents -/

def Shape.read (sh : Shape) (s : Octets) : Except Problem (List Scalar × Octets) :=
  match skipBlanks s with
  | [] => .error (.here .endInValue [])
  | b :: rest =>
    if b = 91 then sh.list rest
    else if b = 123 then sh.object rest
    else .error (unexpected ("struct " ++ sh.name) (b :: rest))

/-- Refuses a document that goes on after its value. -/
def entire {α : Type} (r : Except Problem (α × Octets)) : Except Problem α := do
  let (a, rest) ← r
  match skipBlanks rest with
  | [] => return a
  | after => throw (.ahead .trailingCharacters after)

def Shape.readEntire (sh : Shape) (s : Octets) : Except Problem (List Scalar) := entire (sh.read s)

end MailDispatch.Json
