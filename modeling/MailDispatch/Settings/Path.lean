import MailDispatch.Settings.Tree

/-! # Paths

A key at the top of a document may be a path: a name, and then names after points
and indices in square brackets. A key of any other form is just a name.
-/
namespace MailDispatch.Settings
open Text

inductive Step where
  | child (key : String)
  | index (i : Int)
  deriving DecidableEq, Repr

structure Path where
  key : String
  steps : List Step
  deriving DecidableEq, Repr

namespace Path

def isNameChar (c : Char) : Bool := c.isAlphanum || c == ' ' || c == '_' || c == '-'

def name? (s : List Char) : Option (String × List Char) :=
  match s.takeWhile isNameChar with
  | [] => none
  | n => some (String.ofList n, s.dropWhile isNameChar)

def isSpace (c : Char) : Bool := c == ' ' || c == '\t'

def indexBounds : Numeral.Bounds := .int64

/-- An index with blanks around it, up to the closing bracket. -/
def index? (s : List Char) : Option (Int × List Char) :=
  let s := s.dropWhile isSpace
  let (minus, s) := match s with
    | '-' :: rest => (['-'], rest)
    | s => ([], s)
  match s.takeWhile Char.isDigit with
  | [] => none
  | ds =>
    match Numeral.read indexBounds (minus ++ ds), (s.dropWhile Char.isDigit).dropWhile isSpace with
    | .ok n, ']' :: rest => some (n, rest)
    | _, _ => none

/-- The steps after a name; each takes at least one character. -/
def steps? : Nat → List Char → Option (List Step)
  | _, [] => some []
  | 0, _ => none
  | fuel + 1, '.' :: rest => do
    let (n, rest) ← name? rest
    return .child n :: (← steps? fuel rest)
  | fuel + 1, '[' :: rest => do
    let (i, rest) ← index? rest
    return .index i :: (← steps? fuel rest)
  | _, _ => none

def ofKey (key : String) : Path :=
  match name? key.toList with
  | some (n, rest) =>
    match steps? rest.length rest with
    | some steps => ⟨n, steps⟩
    | none => ⟨key, []⟩
  | none => ⟨key, []⟩

def putSteps (value : Tree) : List Step → Tree → Tree
  | [], _ => value
  | [.child k], node => node.put k value
  | [.index i], node => node.changeItem i fun _ => value
  | .child k :: rest, node => node.changeMember k (putSteps value rest)
  | .index i :: rest, node => node.changeItem i (putSteps value rest)

def put (p : Path) (value : Tree) (root : Tree) : Tree :=
  match p.steps with
  | [] => root.put p.key value
  | steps => root.changeMember p.key (putSteps value steps)

end Path

/-- Puts all that a document says over a tree. What is no table says nothing. -/
def overlay (root document : Tree) : Tree :=
  document.members.foldl (fun root (k, v) => (Path.ofKey k).put v root) root

end MailDispatch.Settings
