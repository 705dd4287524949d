/-! # Binary fractions of 53 digits

A finite number of the double format is a sign, a mantissa below `2 ^ 53` and an
exponent of two. Every operation is the exact one followed by rounding to the
nearest such number, a tie going to the even mantissa.
-/
namespace MailDispatch.Number

structure Binary64 where
  negative : Bool
  mantissa : Nat
  exponent : Int
  deriving DecidableEq, Repr

namespace Binary64

def lowestExponent : Int := -1074
def highestExponent : Int := 971

/-- `2 ^ e` as a fraction. -/
def power (e : Int) : Nat × Nat :=
  if 0 ≤ e then (Nat.pow 2 e.toNat, 1) else (1, Nat.pow 2 (-e).toNat)

def ratio (x : Binary64) : Nat × Nat :=
  let (p, q) := power x.exponent
  (x.mantissa * p, q)

def isZero (x : Binary64) : Bool := x.mantissa == 0

/-- The exponent at which a positive fraction has a mantissa of 53 digits. -/
def fittingExponent (num den : Nat) : Int :=
  let k : Int := (Nat.log2 num : Int) - Nat.log2 den
  let (p, q) := power k
  if num * q < den * p then k - 53 else k - 52

/-- A quotient of naturals rounded to the nearest natural, a tie to the even one. -/
def nearest (num den : Nat) : Nat :=
  let q := num / den
  let r := num % den
  if den < 2 * r ∨ (2 * r = den ∧ q % 2 = 1) then q + 1 else q

/-- The nearest number to a fraction; none where it is beyond the largest one. -/
def round (negative : Bool) (num den : Nat) : Option Binary64 :=
  if num = 0 then some ⟨negative, 0, lowestExponent⟩
  else
    let e := max (fittingExponent num den) lowestExponent
    let (p, q) := power e
    let m := nearest (num * q) (den * p)
    let (m, e) := if m = Nat.pow 2 53 then (Nat.pow 2 52, e + 1) else (m, e)
    if highestExponent < e then none else some ⟨negative, m, e⟩

def ofNat (negative : Bool) (n : Nat) : Option Binary64 := round negative n 1

def product (x y : Binary64) : Option Binary64 :=
  let (a, b) := x.ratio
  let (c, d) := y.ratio
  round (x.negative != y.negative) (a * c) (b * d)

def quotient (x y : Binary64) : Option Binary64 :=
  let (a, b) := x.ratio
  let (c, d) := y.ratio
  round (x.negative != y.negative) (a * d) (b * c)

/-- The number nearest to a power of ten, up to the largest one that there is. -/
def powerOfTen (k : Nat) : Option Binary64 := ofNat false (Nat.pow 10 k)

/-- The largest power of ten that is a single factor. -/
def largestPower : Nat := 308

/-- Divisions by the largest power of ten, until nothing is left. -/
def lower : Nat → Binary64 → Option Binary64
  | 0, x => some x
  | k + 1, x =>
    if x.isZero then some x else ((powerOfTen largestPower).bind x.quotient).bind (lower k)

/-- A number scaled by a power of ten: one multiplication or division, after divisions by the
largest power where the exponent is lower than that power allows. -/
def scale (x : Binary64) (exponent : Int) : Option Binary64 :=
  if 0 ≤ exponent then
    if exponent ≤ largestPower then (powerOfTen exponent.toNat).bind x.product
    else if x.isZero then some x
    else none
  else
    let down := (-exponent).toNat
    let steps := (down - 1) / largestPower
    (lower steps x).bind fun y => (powerOfTen (down - steps * largestPower)).bind y.quotient

/-- The number that a significand and an exponent of ten stand for. -/
def ofDecimal (negative : Bool) (significand : Nat) (exponent : Int) : Option Binary64 := do
  let x ← ofNat false significand
  let y ← x.scale exponent
  return { y with negative }

/-- The magnitude rounded to the nearest natural, a half going up. -/
def roundedMagnitude (x : Binary64) : Nat :=
  let (n, d) := x.ratio
  (2 * n + d) / (2 * d)

end Binary64
end MailDispatch.Number
