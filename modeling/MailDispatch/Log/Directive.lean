import MailDispatch.Text.Classes
import MailDispatch.Text.Numeral
import MailDispatch.Text.Octets

/-! # Directives of a log filter

A directive is a level, or a target, an operation in square brackets or both, with a
level after an equals sign. The brackets may hold the name of the operation and, in
curly ones, a field that it must have.
-/
namespace MailDispatch.Log
open Text

/-- A field that is asked for, perhaps with a value. -/
structure FieldPattern where
  name : String
  value : Option String
  deriving DecidableEq, Repr

structure Directive where
  /-- None covers every part. -/
  target : Option String := none
  /-- The name of the operation that is asked for, if any. -/
  operation : Option String := none
  fields : List FieldPattern := []
  /-- The highest rank of a level that passes; zero lets nothing pass. -/
  rank : Nat
  deriving DecidableEq, Repr

namespace Directive

def lowered (s : List Char) : String := String.ofList (s.map Char.toLower)

def everything : Nat := 5

def namedRank? (s : List Char) : Option Nat :=
  match lowered s with
  | "off" => some 0
  | "error" => some 1
  | "warn" => some 2
  | "info" => some 3
  | "debug" => some 4
  | "trace" => some 5
  | _ => none

/-- The rank that a level stands for, by its number or by its name in any case. -/
def rank? (s : List Char) : Option Nat :=
  match Numeral.read .nat64 s with
  | .ok n => if n ≤ everything then some n.toNat else none
  | .error _ => namedRank? s

/-- The level after an equals sign; where nothing follows it, everything. -/
def levelOf? (s : List Char) : Option Nat := if s.isEmpty then some everything else rank? s

/-- A field pattern: a name, and a value up to a second equals sign. -/
def fieldOf (s : List Char) : FieldPattern :=
  let name := String.ofList (s.takeWhile (· ≠ '='))
  match s.dropWhile (· ≠ '=') with
  | _ :: value => ⟨name, some (String.ofList (value.takeWhile (· ≠ '=')))⟩
  | [] => ⟨name, none⟩

/-! ## Reading

The reader looks for the marks of a directive between the blanks around it, and counts
octets from the first character that is not blank. The texts between the marks are cut
out of the whole, so that blanks in front shift them.
-/

inductive Spot where
  | start
  | word (begin : Nat)
  | brackets (begin : Nat)
  | field (begin : Nat)
  | fieldsDone
  | bracketsDone
  | level (begin : Nat)
  deriving DecidableEq, Repr

def cut? (whole : Octets) (first last : Nat) : Option (List Char) :=
  (Octets.text? ((whole.take last).drop first)).map String.toList

def mayBegin (c : Char) : Bool := c == '-' || c == ':' || c == '_' || isAlphanumeric c

def step? (whole : Octets) (d : Directive) (spot : Spot) (place : Nat) (c : Char) :
    Option (Directive × Spot) :=
  match spot with
  | .start =>
    if c = '[' then some (d, .brackets (place + 1))
    else if mayBegin c then some (d, .word place)
    else none
  | .word first =>
    if c = '=' ∨ c = '[' then do
      let target ← cut? whole first place
      let next := if c = '=' then Spot.level (place + 1) else .brackets (place + 1)
      return ({ d with target := some (String.ofList target) }, next)
    else some (d, spot)
  | .brackets first =>
    if c = ']' then do
      let name ← cut? whole first place
      return ({ d with operation := some (String.ofList name) }, .bracketsDone)
    else if c = '\x7b' then do
      let name ← cut? whole first place
      let operation := if name.isEmpty then none else some (String.ofList name)
      return ({ d with operation }, .field (place + 1))
    else some (d, spot)
  | .field first =>
    if c = '\x7d' then do
      let field ← cut? whole first place
      if field.isEmpty then none
      else return ({ d with fields := d.fields ++ [fieldOf field] }, .fieldsDone)
    else some (d, spot)
  | .fieldsDone => if c = ']' then some (d, .bracketsDone) else none
  | .bracketsDone => if c = '=' then some (d, .level (place + 1)) else none
  | .level _ => some (d, spot)

/-- The directive at the end of the text, where a word alone is a level or else a target. -/
def finish? (whole : Octets) (d : Directive) : Spot → Option Directive
  | .word first => do
    let word ← cut? whole first whole.length
    match rank? word with
    | some rank => return { d with rank }
    | none => return { d with target := some (String.ofList word) }
  | .level first => do
    let rank ← levelOf? (← cut? whole first whole.length)
    return { d with rank }
  | .bracketsDone => some d
  | _ => none

def scan? (whole : Octets) : Directive → Spot → Nat → List Char → Option Directive
  | d, spot, _, [] => finish? whole d spot
  | d, spot, place, c :: rest =>
    match step? whole d spot place c with
    | some (d, spot) => scan? whole d spot (place + c.utf8Size) rest
    | none => none

def trimmed (s : List Char) : List Char := (trimStart (trimStart s).reverse).reverse

def ofText? (s : List Char) : Option Directive :=
  scan? (Octets.ofChars s) { rank := everything } .start 0 (trimmed s)

end Directive
end MailDispatch.Log
