import MailDispatch.Text.Numeral

/-! # Spans of time

A span is a number of seconds and a fraction in nanoseconds. It is shown in the
largest unit in which it is at least one, with a fraction only where there is one.
-/
namespace MailDispatch.Time
open Text

structure Span where
  seconds : Nat
  nanos : Nat
  nanos_lt : nanos < 1000000000 := by omega
  deriving DecidableEq, Repr

namespace Span

def ofSeconds (s : Nat) : Span := ⟨s, 0, by decide⟩

def ofNanos (n : Nat) : Span := ⟨n / 1000000000, n % 1000000000, Nat.mod_lt _ (by decide)⟩

def ofMillis (ms : Nat) : Span := ofNanos (ms * 1000000)

def totalNanos (s : Span) : Nat := s.seconds * 1000000000 + s.nanos

def isZero (s : Span) : Bool := s.seconds == 0 && s.nanos == 0

/-- The digits of a fraction of the given width without the zeros at its end. -/
def fraction (width n : Nat) : List Char :=
  ((Numeral.padded width n).reverse.dropWhile (· == '0')).reverse

def decimal (whole width part : Nat) : List Char :=
  Numeral.ofNat whole ++
    match fraction width part with
    | [] => []
    | ds => '.' :: ds

def text (s : Span) : String :=
  String.ofList <|
    if 0 < s.seconds then decimal s.seconds 9 s.nanos ++ ['s']
    else if 1000000 ≤ s.nanos then decimal (s.nanos / 1000000) 6 (s.nanos % 1000000) ++ ['m', 's']
    else if 1000 ≤ s.nanos then decimal (s.nanos / 1000) 3 (s.nanos % 1000) ++ ['µ', 's']
    else decimal s.nanos 0 0 ++ ['n', 's']

end Span
end MailDispatch.Time
