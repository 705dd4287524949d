import MailDispatch.Text.Octets
import MailDispatch.Text.Numeral

/-! # What can be wrong with a document

A reader stops at the first problem. A problem remembers how many octets were
unread when it was found, which gives the line and the column, and the member or
the element of the record in which it lies.
-/
namespace MailDispatch.Json
open Text

inductive Code where
  | endInList
  | endInObject
  | endInString
  | endInValue
  | expectedColon
  | expectedListEnd
  | expectedObjectEnd
  | expectedWord
  | expectedValue
  | invalidEscape
  | invalidNumber
  | numberOutOfRange
  | invalidCodePoint
  | controlCharacter
  | keyMustBeText
  | loneSurrogate
  | trailingComma
  | trailingCharacters
  | unfinishedSurrogate
  | tooDeep
  | data (message : String)
  deriving DecidableEq, Repr

inductive Category where
  | malformed
  | data
  | ended
  deriving DecidableEq, Repr

def Code.category : Code → Category
  | .endInList | .endInObject | .endInString | .endInValue => .ended
  | .data _ => .data
  | _ => .malformed

def Code.message : Code → String
  | .endInList => "EOF while parsing a list"
  | .endInObject => "EOF while parsing an object"
  | .endInString => "EOF while parsing a string"
  | .endInValue => "EOF while parsing a value"
  | .expectedColon => "expected `:`"
  | .expectedListEnd => "expected `,` or `]`"
  | .expectedObjectEnd => "expected `,` or `\x7d`"
  | .expectedWord => "expected ident"
  | .expectedValue => "expected value"
  | .invalidEscape => "invalid escape"
  | .invalidNumber => "invalid number"
  | .numberOutOfRange => "number out of range"
  | .invalidCodePoint => "invalid unicode code point"
  | .controlCharacter => "control character (\\u0000-\\u001F) found while parsing a string"
  | .keyMustBeText => "key must be a string"
  | .loneSurrogate => "lone leading surrogate in hex escape"
  | .trailingComma => "trailing comma"
  | .trailingCharacters => "trailing characters"
  | .unfinishedSurrogate => "unexpected end of hex escape"
  | .tooDeep => "recursion limit exceeded"
  | .data m => m

inductive Place where
  | whole
  | member (key : String)
  | element (index : Nat)
  deriving DecidableEq, Repr

structure Problem where
  code : Code
  left : Nat
  place : Place := .whole
  deriving DecidableEq, Repr

namespace Problem

/-- A problem with what was read last. -/
def here (code : Code) (rest : Octets) : Problem := { code, left := rest.length }

/-- A problem with the next octet. -/
def ahead (code : Code) (rest : Octets) : Problem := { code, left := rest.length - 1 }

def category (p : Problem) : Category := p.code.category

def within (place : Place) (p : Problem) : Problem :=
  match p.place with
  | .whole => { p with place }
  | _ => p

end Problem

structure Position where
  line : Nat
  column : Nat
  deriving DecidableEq, Repr

def Position.after (p : Position) (b : UInt8) : Position :=
  if b = 10 then ⟨p.line + 1, 0⟩ else ⟨p.line, p.column + 1⟩

def Position.ofRead (read : Octets) : Position := read.foldl Position.after ⟨1, 0⟩

def Problem.position (document : Octets) (p : Problem) : Position :=
  Position.ofRead (document.take (document.length - p.left))

def Place.text : Place → String
  | .whole => ""
  | .member key => key ++ ": "
  | .element index => "[" ++ Numeral.text index ++ "]: "

/-- The words for the log: the place, the problem and the position in the document. -/
def Problem.text (document : Octets) (p : Problem) : String :=
  let q := p.position document
  p.place.text ++ p.code.message ++ " at line " ++ Numeral.text q.line ++
    " column " ++ Numeral.text q.column

def within {α : Type} (place : Place) (r : Except Problem α) : Except Problem α :=
  match r with
  | .ok a => .ok a
  | .error p => .error (p.within place)

end MailDispatch.Json
