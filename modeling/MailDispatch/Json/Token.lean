import MailDispatch.Json.Problem
import MailDispatch.Number.Binary64

/-! # Tokens of a document

Blanks, words, texts and numbers. Each reader takes the octets from its first one
on and gives the value and the octets that follow it.
-/
namespace MailDispatch.Json
open Text Number

def isBlank (b : UInt8) : Bool := b == 32 || b == 10 || b == 9 || b == 13

def skipBlanks (s : Octets) : Octets := s.dropWhile isBlank

/-- The rest of a word after its first octet. -/
def word : List UInt8 → Octets → Except Problem Octets
  | [], s => .ok s
  | _ :: _, [] => .error (.here .endInValue [])
  | w :: ws, b :: rest => if b = w then word ws rest else .error (.here .expectedWord rest)

def null : Octets → Except Problem Octets := word [117, 108, 108]
def yes : Octets → Except Problem Octets := word [114, 117, 101]
def no : Octets → Except Problem Octets := word [97, 108, 115, 101]

/-! ## Texts -/

def hexEscape : Octets → Except Problem (Nat × Octets)
  | a :: b :: c :: d :: rest =>
    match Octets.hexValue? a, Octets.hexValue? b, Octets.hexValue? c, Octets.hexValue? d with
    | some a, some b, some c, some d => .ok (((a * 16 + b) * 16 + c) * 16 + d, rest)
    | _, _, _, _ => .error (.here .invalidEscape rest)
  | _ => .error (.here .endInString [])

/-- The octet that must follow the first half of a surrogate pair. -/
def surrogateMark (mark : UInt8) : Octets → Except Problem Octets
  | [] => .error (.here .endInString [])
  | b :: rest => if b = mark then .ok rest else .error (.here .unfinishedSurrogate rest)

/-- The character of an escape by number, which may take two escapes. -/
def unicodeEscape (s : Octets) : Except Problem (Char × Octets) := do
  let (n, s) ← hexEscape s
  if 0xDC00 ≤ n ∧ n ≤ 0xDFFF then throw (.here .loneSurrogate s)
  if n < 0xD800 ∨ 0xDBFF < n then return (Char.ofNat n, s)
  let s ← surrogateMark 92 s
  let s ← surrogateMark 117 s
  let (m, s) ← hexEscape s
  if m < 0xDC00 ∨ 0xDFFF < m then throw (.here .loneSurrogate s)
  return (Char.ofNat ((n - 0xD800) * 1024 + (m - 0xDC00) + 0x10000), s)

def letterEscape? (b : UInt8) : Option Char :=
  if b = 34 then some '"'
  else if b = 92 then some '\\'
  else if b = 47 then some '/'
  else if b = 98 then some '\x08'
  else if b = 102 then some '\x0c'
  else if b = 110 then some '\n'
  else if b = 114 then some '\r'
  else if b = 116 then some '\t'
  else none

def escape : Octets → Except Problem (Char × Octets)
  | [] => .error (.here .endInString [])
  | b :: rest =>
    match letterEscape? b with
    | some c => .ok (c, rest)
    | none => if b = 117 then unicodeEscape rest else .error (.here .invalidEscape rest)

def isPlain (b : UInt8) : Bool := 32 ≤ b && b != 34 && b != 92

/-- The characters of a row of octets that stand for themselves, before those that follow. What
spells no character is found at its first octet. -/
def plainChars (s : Octets) : Except Problem (List Char) :=
  let row := s.takeWhile isPlain
  match Octets.text? row with
  | some t => .ok t.toList
  | none => .error (.here .invalidCodePoint (s.drop (Octets.spelled row + 1)))

/-- The characters of a text up to its closing quote, last one first, after those before them.
Each step takes at least one octet, so that the length of the document is fuel enough. A row
is checked at the quote or the escape behind it. -/
def textChars : Nat → List Char → Octets → Except Problem (List Char × Octets)
  | 0, _, _ => .error (.here .endInString [])
  | fuel + 1, acc, s =>
    match s.dropWhile isPlain with
    | [] => .error (.here .endInString [])
    | b :: rest =>
      if b < 32 then .error (.here .controlCharacter rest)
      else
        match plainChars s with
        | .error p => .error p
        | .ok cs =>
          if b = 34 then .ok (cs.reverse ++ acc, rest)
          else
            match escape rest with
            | .ok (c, rest) => textChars fuel (c :: (cs.reverse ++ acc)) rest
            | .error p => .error p

def text (s : Octets) : Except Problem (String × Octets) :=
  match textChars (s.length + 1) [] s with
  | .ok (acc, rest) => .ok (String.ofList acc.reverse, rest)
  | .error p => .error p

/-! ## Numbers -/

/-- A number as it is written: a natural or a negative whole number of 64 bits, or a binary
fraction where it has a point or an exponent or is too large. -/
inductive Numeric where
  | whole (n : Int)
  | fraction (x : Binary64)
  deriving DecidableEq, Repr

def largestSignificand : Nat := 18446744073709551615

/-- Appends digits to a significand while it fits. Gives it and the digits that are left. -/
def extend : Nat → List UInt8 → Nat × List UInt8
  | n, [] => (n, [])
  | n, b :: rest =>
    let next := n * 10 + Octets.digitValue b
    if next ≤ largestSignificand then extend next rest else (n, b :: rest)

def fractionOf (negative : Bool) (significand : Nat) (exponent : Int) (rest : Octets) :
    Except Problem (Numeric × Octets) :=
  match Binary64.ofDecimal negative significand exponent with
  | some x => .ok (.fraction x, rest)
  | none => .error (.here .numberOutOfRange rest)

/-- The digits of an exponent, as long as they stay below the bound. Gives what follows the
digit that crosses it. -/
def exponentDigits : Nat → Octets → Except Octets (Nat × Octets)
  | e, [] => .ok (e, [])
  | e, b :: rest =>
    if Octets.isDigit b then
      let next := e * 10 + Octets.digitValue b
      if next ≤ 2147483647 then exponentDigits next rest else .error rest
    else .ok (e, b :: rest)

def exponentSign : Octets → Bool × Octets
  | 43 :: rest => (true, rest)
  | 45 :: rest => (false, rest)
  | s => (true, s)

def exponent (negative : Bool) (significand : Nat) (start : Int) (s : Octets) :
    Except Problem (Numeric × Octets) :=
  let (up, s) := exponentSign s
  match s with
  | [] => .error (.here .endInValue [])
  | b :: rest =>
    if Octets.isDigit b then
      match exponentDigits 0 (b :: rest) with
      | .ok (e, rest) =>
        let e : Int := if up then start + e else start - e
        fractionOf negative significand (max (-2147483648) (min e 2147483647)) rest
      | .error rest =>
        if up ∧ significand ≠ 0 then .error (.here .numberOutOfRange rest)
        else fractionOf negative 0 0 (rest.dropWhile Octets.isDigit)
    else .error (.here .invalidNumber rest)

def isExponentMark (b : UInt8) : Bool := b == 101 || b == 69

def decimals (negative : Bool) (significand : Nat) (before : Int) (s : Octets) :
    Except Problem (Numeric × Octets) :=
  let ds := s.takeWhile Octets.isDigit
  let rest := s.dropWhile Octets.isDigit
  if ds.isEmpty then
    match s with
    | [] => .error (.here .endInValue [])
    | _ => .error (.ahead .invalidNumber s)
  else
    let (n, left) := extend significand ds
    let power := before - (ds.length - left.length : Nat)
    match rest with
    | b :: after =>
      if isExponentMark b then exponent negative n power after
      else fractionOf negative n power rest
    | [] => fractionOf negative n power []

/-- What follows the digits of the whole part, `dropped` of which did not fit. -/
def numberTail (negative : Bool) (significand dropped : Nat) (s : Octets) :
    Except Problem (Numeric × Octets) :=
  let plain : Except Problem (Numeric × Octets) :=
    if 0 < dropped then fractionOf negative significand dropped s
    else if ¬ negative then .ok (.whole significand, s)
    else if significand = 0 ∨ 9223372036854775808 < significand then
      fractionOf true significand 0 s
    else .ok (.whole (-significand), s)
  match s with
  | b :: rest =>
    if b = 46 then decimals negative significand dropped rest
    else if isExponentMark b then exponent negative significand dropped rest
    else plain
  | [] => plain

def unsigned (negative : Bool) : Octets → Except Problem (Numeric × Octets)
  | [] => .error (.here .endInValue [])
  | b :: rest =>
    if b = 48 then
      match rest with
      | d :: _ =>
        if Octets.isDigit d then .error (.ahead .invalidNumber rest)
        else numberTail negative 0 0 rest
      | [] => numberTail negative 0 0 []
    else if Octets.isDigit b then
      let ds := b :: rest.takeWhile Octets.isDigit
      let (n, left) := extend 0 ds
      numberTail negative n left.length (rest.dropWhile Octets.isDigit)
    else .error (.here .invalidNumber rest)

def number? : Octets → Option (Except Problem (Numeric × Octets))
  | [] => none
  | b :: rest =>
    if b = 45 then some (unsigned true rest)
    else if Octets.isDigit b then some (unsigned false (b :: rest))
    else none

end MailDispatch.Json
