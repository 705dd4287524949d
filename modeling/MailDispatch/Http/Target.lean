import MailDispatch.Text.Octets
import MailDispatch.Text.Pieces

/-! # Request targets

A target has a path and a query; a fragment is not part of it. The segments of a
path may hold octets in percent form, which are read once.
-/
namespace MailDispatch.Http
open Text

structure Target where
  /-- Scheme and authority in front of the path, where they are given. -/
  origin : String
  path : String
  query : Option String
  deriving DecidableEq, Repr

namespace Target

def isSchemeChar (c : Char) : Bool := c.isAlphanum || "+-.~".toList.contains c

/-- A scheme as it is shown: the two of the web in lower case, others as they are. -/
def shownScheme (scheme : List Char) : List Char :=
  let lower := scheme.map Char.toLower
  if lower = "http".toList ∨ lower = "https".toList then lower else scheme

def isAuthorityEnd (c : Char) : Bool := c == '/' || c == '?' || c == '#'

/-- The scheme and the authority of an absolute target, and what follows them. The scheme may
be empty. -/
def splitOrigin (s : List Char) : List Char × List Char :=
  match s.dropWhile isSchemeChar with
  | ':' :: '/' :: '/' :: rest =>
    (shownScheme (s.takeWhile isSchemeChar) ++ "://".toList ++
        rest.takeWhile (fun c => !isAuthorityEnd c),
      rest.dropWhile fun c => !isAuthorityEnd c)
  | _ => ([], s)

def parse (text : String) : Target :=
  let (origin, rest) := splitOrigin text.toList
  let rest := rest.takeWhile (· ≠ '#')
  let path := rest.takeWhile (· ≠ '?')
  let path := if path.isEmpty then ['/'] else path
  match rest.dropWhile (· ≠ '?') with
  | _ :: query => ⟨String.ofList origin, String.ofList path, some (String.ofList query)⟩
  | [] => ⟨String.ofList origin, String.ofList path, none⟩

def text (t : Target) : String :=
  t.origin ++ t.path ++
    match t.query with
    | some q => "?" ++ q
    | none => ""

/-- The segments of a path after its leading slash; none where there is no such slash. -/
def segments (t : Target) : Option (List String) :=
  match t.path.toList with
  | '/' :: rest => some ((split '/' rest).map String.ofList)
  | _ => none

end Target

/-- Reads octets in percent form. What is not well formed stays as it is. -/
def percentDecoded : List UInt8 → List UInt8
  | [] => []
  | 37 :: a :: b :: rest =>
    match Octets.hexValue? a, Octets.hexValue? b with
    | some x, some y => UInt8.ofNat (x * 16 + y) :: percentDecoded rest
    | _, _ => 37 :: percentDecoded (a :: b :: rest)
  | c :: rest => c :: percentDecoded rest

/-- The text of a segment, if its octets spell one. -/
def segmentText? (segment : String) : Option String :=
  Octets.text? (percentDecoded (Octets.ofString segment))

end MailDispatch.Http
