import MailDispatch.Number.Binary64
import MailDispatch.Text.Numeral

/-! # The shortest decimal of a number

Of the decimals that lie nearer to the number than to any other number of the
format, the one with the fewest digits, and of those the nearest one. It is written
either by its digits and a point alone, or with an exponent where it is long.
-/
namespace MailDispatch.Number.Shortest
open Text

/-- A decimal: its digits as a natural and the power of ten of the last of them. -/
structure Decimal where
  digits : Nat
  power : Int
  deriving DecidableEq, Repr

/-- The ends of the interval that rounds to the number, and the number, in quarters of the
last binary place. -/
def bounds (x : Binary64) : Nat × Nat × Nat :=
  let atPower := x.mantissa == Nat.pow 2 52 && Binary64.lowestExponent < x.exponent
  (4 * x.mantissa - (if atPower then 1 else 2), 4 * x.mantissa, 4 * x.mantissa + 2)

/-- The power of ten of the first digit of a fraction below one: the zeros before it. -/
def leadingPower : Nat → Nat → Nat → Int
  | 0, _, _ => 0
  | fuel + 1, num, den => if den ≤ num then 0 else leadingPower fuel (num * 10) den - 1

def firstPower (num den : Nat) : Int :=
  if den ≤ num then ((Numeral.ofNat (num / den)).length : Int) - 1 else leadingPower 400 num den

/-- Whether the multiple of a power of ten lies in the interval. -/
def inside (closed : Bool) (low high : Nat) (at_ : Nat) : Bool :=
  if closed then low ≤ at_ && at_ ≤ high else low < at_ && at_ < high

/-- The nearest multiple of a power of ten in the interval, if there is one. -/
def onGrid (x : Binary64) (p : Int) : Option Decimal :=
  let (low, mid, high) := bounds x
  let (a, b) := Binary64.power (x.exponent - 2)
  let (unit, scale) : Nat × Nat :=
    if 0 ≤ p then (Nat.pow 10 p.toNat * b, a) else (b, Nat.pow 10 (-p).toNat * a)
  let d := mid * scale / unit
  let closed := x.mantissa % 2 == 0
  let below := inside closed (low * scale) (high * scale) (d * unit)
  let above := inside closed (low * scale) (high * scale) ((d + 1) * unit)
  let nearBelow := 2 * (mid * scale - d * unit) ≤ unit
  if below && (nearBelow || !above) then some ⟨d, p⟩
  else if above then some ⟨d + 1, p⟩
  else none

/-- Tries grids of one digit more each time. -/
def search (x : Binary64) : Nat → Int → Option Decimal
  | 0, _ => none
  | fuel + 1, p =>
    match onGrid x p with
    | some d => some d
    | none => search x fuel (p - 1)

def strip : Nat → Decimal → Decimal
  | 0, d => d
  | fuel + 1, d =>
    if d.digits ≠ 0 ∧ d.digits % 10 = 0 then strip fuel ⟨d.digits / 10, d.power + 1⟩ else d

def decimal (x : Binary64) : Decimal :=
  if x.isZero then ⟨0, 0⟩
  else
    let (n, d) := x.ratio
    strip 400 ((search x 18 (firstPower n d)).getD ⟨0, 0⟩)

def sign (x : Binary64) : List Char := if x.negative then ['-'] else []

/-- Digits with the point `places` before their end. -/
def pointed (ds : List Char) (places : Nat) : List Char :=
  let ds := List.replicate (places + 1 - ds.length) '0' ++ ds
  ds.take (ds.length - places) ++ '.' :: ds.drop (ds.length - places)

/-- By digits and a point alone; whole numbers have no point. -/
def positional (x : Binary64) : List Char :=
  let d := decimal x
  let ds := Numeral.ofNat d.digits
  sign x ++
    if 0 ≤ d.power then (if d.digits = 0 then ds else ds ++ List.replicate d.power.toNat '0')
    else pointed ds (-d.power).toNat

def signed (e : Int) : List Char := if e < 0 then Numeral.ofInt e else '+' :: Numeral.ofInt e

/-- With a point always, or with an exponent where the point would be more than sixteen
digits from the first digit or more than four zeros before it. -/
def scientific (x : Binary64) : List Char :=
  let d := decimal x
  let ds := Numeral.ofNat d.digits
  let point : Int := ds.length + d.power
  sign x ++
    if d.digits = 0 then "0.0".toList
    else if 0 ≤ d.power ∧ point ≤ 16 then ds ++ List.replicate d.power.toNat '0' ++ ['.', '0']
    else if -5 < point ∧ point ≤ 16 then pointed ds (-d.power).toNat
    else
      let exponent := signed (point - 1)
      match ds with
      | [c] => c :: 'e' :: exponent
      | ds => pointed ds (ds.length - 1) ++ 'e' :: exponent

end MailDispatch.Number.Shortest
