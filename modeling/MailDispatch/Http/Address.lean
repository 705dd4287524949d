import MailDispatch.Text.Numeral
import MailDispatch.Text.Octets
import MailDispatch.Text.Pieces

/-! # Network addresses

An address has four octets or eight groups of sixteen bits. It is written in its
shortest form: groups in hexadecimal without zeros in front, and the longest row of
zero groups, the first of several, as two colons. An address of octets in the guise
of one of groups shows its octets.
-/
namespace MailDispatch.Http
open Text

inductive Address where
  | octets (values : List Nat)
  | groups (values : List Nat)
  deriving DecidableEq, Repr

namespace Address

/-! ## Reading -/

def octetBounds : Numeral.Bounds := ⟨0, 255⟩

/-- The octets between three points. -/
def octets? (s : List Char) : Option (List Nat) :=
  let pieces := split '.' s
  if pieces.length = 4 then
    pieces.mapM fun p => ((Numeral.read octetBounds p).toOption).map Int.toNat
  else none

def hexStep (value : Option Nat) (c : Char) : Option Nat := do
  let v ← value
  let d ← Octets.hexValue? (UInt8.ofNat c.toNat)
  return v * 16 + d

/-- A group of at most four digits. -/
def group? (s : List Char) : Option Nat :=
  if s.isEmpty || 4 < s.length then none else s.foldl hexStep (some 0)

/-- Groups between colons; the last two may be written as octets. -/
def groupRow? : List (List Char) → Option (List Nat)
  | [] => some []
  | [p] =>
    match group? p, octets? p with
    | some g, _ => some [g]
    | none, some [a, b, c, d] => some [a * 256 + b, c * 256 + d]
    | none, _ => none
  | p :: ps => do return (← group? p) :: (← groupRow? ps)

def row? (s : List Char) : Option (List Nat) :=
  if s.isEmpty then some [] else groupRow? (split ':' s)

/-- What stands before and after the first pair of colons. -/
def atGap : List Char → Option (List Char × List Char)
  | ':' :: ':' :: rest => some ([], rest)
  | c :: rest => (atGap rest).map fun (before, after) => (c :: before, after)
  | [] => none

/-- Eight groups, of which a pair of colons stands for as many zeros as are missing. -/
def groups? (s : List Char) : Option (List Nat) := do
  match atGap s with
  | some (before, after) =>
    let front ← row? before
    let back ← row? after
    if front.length + back.length < 8 then
      return front ++ List.replicate (8 - front.length - back.length) 0 ++ back
    else none
  | none =>
    let all ← row? s
    if all.length = 8 then return all else none

/-- The address in front of a port. One of groups stands in brackets, where a zone may follow
it. -/
def ofEndpoint? (text : String) : Option Address :=
  match text.toList with
  | '[' :: rest => (groups? (rest.takeWhile fun c => c != ']' && c != '%')).map .groups
  | s => (octets? (s.takeWhile (· ≠ ':'))).map .octets

/-! ## Writing -/

def octetsText (values : List Nat) : List Char := join '.' (values.map Numeral.ofNat)

def groupsText (values : List Nat) : List Char := join ':' (values.map (Nat.toDigits 16))

def zerosFrom (values : List Nat) (i : Nat) : Nat := ((values.drop i).takeWhile (· == 0)).length

/-- The start and the length of the longest row of zeros, the first of several. -/
def longestZeros (values : List Nat) : Nat × Nat :=
  (List.range values.length).foldl
    (fun best i => if best.2 < zerosFrom values i then (i, zerosFrom values i) else best) (0, 0)

def text : Address → String
  | .octets values => String.ofList (octetsText values)
  | .groups [0, 0, 0, 0, 0, 65535, a, b] =>
    String.ofList ("::ffff:".toList ++ octetsText [a / 256, a % 256, b / 256, b % 256])
  | .groups values =>
    let (start, length) := longestZeros values
    String.ofList <|
      if 1 < length then
        groupsText (values.take start) ++ "::".toList ++ groupsText (values.drop (start + length))
      else groupsText values

end Address
end MailDispatch.Http
