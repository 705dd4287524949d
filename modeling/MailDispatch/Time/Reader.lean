import MailDispatch.Time.Timestamp
import MailDispatch.Text.Classes

/-! # Reading a timestamp

A date, a time of day and an offset, with blanks allowed between the parts. The
reader goes from left to right and reports the first problem; the date and the
offset are checked against the calendar when all parts are there.
-/
namespace MailDispatch.Time.Reader
open Text Calendar

inductive Problem where
  | invalid
  | tooShort
  | tooLong
  | outOfRange
  | impossible
  deriving DecidableEq, Repr

def Problem.message : Problem → String
  | .invalid => "input contains invalid characters"
  | .tooShort => "premature end of input"
  | .tooLong => "trailing input"
  | .outOfRange => "input is out of range"
  | .impossible => "no possible date and time matching input"

/-- At least one and at most `width` digits; a value that leaves 64 bits is out of range. -/
def digits : Nat → Nat → List Char → Except Problem (Nat × List Char)
  | 0, value, s => .ok (value, s)
  | _ + 1, value, [] => .ok (value, [])
  | width + 1, value, c :: rest =>
    match Numeral.digit? c with
    | none => .ok (value, c :: rest)
    | some d =>
      if value * 10 + d ≤ 9223372036854775807 then digits width (value * 10 + d) rest
      else .error .outOfRange

def number (width : Nat) : List Char → Except Problem (Nat × List Char)
  | [] => .error .tooShort
  | c :: rest =>
    match Numeral.digit? c with
    | none => .error .invalid
    | some _ => digits width 0 (c :: rest)

def bounded (low high : Nat) (s : List Char) : Except Problem (Nat × List Char) := do
  let (n, rest) ← number 2 (trimStart s)
  if low ≤ n ∧ n ≤ high then return (n, rest) else throw .outOfRange

def literal (c : Char) : List Char → Except Problem (List Char)
  | [] => .error .tooShort
  | d :: rest => if d = c then .ok rest else .error .invalid

def spaced (c : Char) (s : List Char) : Except Problem (List Char) := literal c (trimStart s)

/-- A year: four digits at most without a sign, any number of them with one. -/
def year (s : List Char) : Except Problem (Int × List Char) := do
  let (n, rest) ← match trimStart s with
    | '-' :: rest => do
      let (n, rest) ← number rest.length rest
      pure (-(n : Int), rest)
    | '+' :: rest => do
      let (n, rest) ← number rest.length rest
      pure ((n : Int), rest)
    | s => do
      let (n, rest) ← number 4 s
      pure ((n : Int), rest)
  if -2147483648 ≤ n ∧ n ≤ 2147483647 then return (n, rest) else throw .outOfRange

def date (s : List Char) : Except Problem (Date × List Char) := do
  let (y, s) ← year s
  let s ← spaced '-' s
  let (m, s) ← bounded 1 12 s
  let s ← spaced '-' s
  let (d, s) ← bounded 1 31 s
  return (⟨y, m, d⟩, s)

/-- What stands between the date and the time of day: the letter, or one plain space. Further
blanks belong to the number after it. -/
def separator : List Char → Except Problem (List Char)
  | [] => .error .tooShort
  | c :: rest => if c = 'T' ∨ c = 't' ∨ c = ' ' then .ok rest else .error .invalid

/-- A fraction of a second in nanoseconds: nine digits count, further ones are dropped. -/
def fraction : List Char → Except Problem (Nat × List Char)
  | '.' :: s => do
    let (n, rest) ← number 9 s
    let used := s.length - rest.length
    return (n * Nat.pow 10 (9 - used), rest.dropWhile fun c => (Numeral.digit? c).isSome)
  | s => .ok (0, s)

structure Clock where
  hour : Nat
  minute : Nat
  second : Nat
  nano : Nat
  deriving DecidableEq, Repr

def clock (s : List Char) : Except Problem (Clock × List Char) := do
  let (h, s) ← bounded 0 23 s
  let s ← spaced ':' s
  let (m, s) ← bounded 0 59 s
  let s ← spaced ':' s
  let (sec, s) ← bounded 0 60 s
  let (nano, s) ← fraction s
  return (⟨h, m, sec, nano⟩, s)

/-- Two digits; a character of several octets is never too short for them. -/
def twoDigits : List Char → Except Problem (Nat × List Char)
  | [] => .error .tooShort
  | [c] => .error (if c.toNat < 128 then .tooShort else .invalid)
  | c :: d :: rest =>
    match Numeral.digit? c, Numeral.digit? d with
    | some a, some b => .ok (a * 10 + b, rest)
    | _, _ => .error .invalid

def isColonOrBlank (c : Char) : Bool := c == ':' || isBlank c

/-- The minutes of an offset after its sign, counted without the sign. -/
def offsetMinutes (s : List Char) : Except Problem (Nat × List Char) := do
  let (h, s) ← twoDigits s
  let (m, s) ← twoDigits (s.dropWhile isColonOrBlank)
  if m < 60 then return (h * 60 + m, s) else throw .outOfRange

def offset (s : List Char) : Except Problem (Int × List Char) :=
  match trimStart s with
  | [] => .error .tooShort
  | 'Z' :: rest | 'z' :: rest => .ok (0, rest)
  | '+' :: rest => do
    let (m, rest) ← offsetMinutes rest
    return ((m * 60 : Int), rest)
  | '-' :: rest | '\u2212' :: rest => do
    let (m, rest) ← offsetMinutes rest
    return (-(m * 60 : Int), rest)
  | u :: t :: c :: rest =>
    if (u = 'U' ∨ u = 'u') ∧ (t = 'T' ∨ t = 't') ∧ (c = 'C' ∨ c = 'c') then .ok (0, rest)
    else .error .invalid
  | _ => .error .invalid

/-- The second of the day; the sixtieth second of a minute runs over the one before it. -/
def Clock.seconds (c : Clock) : Nat × Nat :=
  if c.second = 60 then (c.hour * 3600 + c.minute * 60 + 59, c.nano + 1000000000)
  else (c.hour * 3600 + c.minute * 60 + c.second, c.nano)

def resolve (d : Date) (c : Clock) (off : Int) : Except Problem Timestamp :=
  if ¬ d.Exists ∨ d.year < -262143 ∨ 262142 < d.year then .error .outOfRange
  else if off ≤ -86400 ∨ 86400 ≤ off then .error .outOfRange
  else
    let (s, nano) := c.seconds
    match Timestamp.make? ((dayNumber d - epoch) * 86400 + s - off) nano with
    | some t => .ok t
    | none => .error .impossible

def read (s : List Char) : Except Problem Timestamp := do
  let (d, s) ← date s
  let s ← separator s
  let (c, s) ← clock s
  let (off, s) ← offset s
  if (trimStart s).isEmpty then resolve d c off else throw .tooLong

end MailDispatch.Time.Reader
