/-! # The calendar

The proleptic calendar with a leap year every four years, except for the centuries
that four hundred does not divide. Days are counted from the first of January of
the year zero; `epoch` is the number of the first of January 1970.
-/
namespace MailDispatch.Time.Calendar

def isLeap (year : Int) : Bool :=
  year % 4 == 0 && (year % 100 != 0 || year % 400 == 0)

def februaryLength (year : Int) : Nat := if isLeap year then 29 else 28

def monthLengths (year : Int) : List Nat :=
  [31, februaryLength year, 31, 30, 31, 30, 31, 31, 30, 31, 30, 31]

/-- The length of a month, the first being 1; there are no days in other months. -/
def monthLength (year : Int) (month : Nat) : Nat :=
  if month = 0 then 0 else (monthLengths year).getD (month - 1) 0

structure Date where
  year : Int
  month : Nat
  day : Nat
  deriving DecidableEq, Repr

def Date.Exists (d : Date) : Prop := 1 ≤ d.day ∧ d.day ≤ monthLength d.year d.month

instance (d : Date) : Decidable d.Exists := inferInstanceAs (Decidable (_ ∧ _))

def daysBeforeYear (year : Int) : Int :=
  365 * year + (year + 3) / 4 - (year + 99) / 100 + (year + 399) / 400

def daysBeforeMonth (year : Int) (month : Nat) : Nat :=
  ((monthLengths year).take (month - 1)).foldr (· + ·) 0

def dayNumber (d : Date) : Int :=
  daysBeforeYear d.year + daysBeforeMonth d.year d.month + (d.day - 1 : Int)

/-- The year of a day: the mean length of a year gives it up to one. -/
def yearOf (n : Int) : Int :=
  let guess := n * 400 / 146097
  if daysBeforeYear (guess + 1) ≤ n then guess + 1
  else if daysBeforeYear guess ≤ n then guess
  else guess - 1

/-- The month in which a day of the year falls, and the days before it in that month. -/
def splitMonths : Nat → Nat → List Nat → Nat × Nat
  | month, rest, [] => (month, rest)
  | month, rest, length :: lengths =>
    if rest < length then (month, rest) else splitMonths (month + 1) (rest - length) lengths

def dateOf (n : Int) : Date :=
  let year := yearOf n
  let (month, rest) := splitMonths 1 (n - daysBeforeYear year).toNat (monthLengths year)
  ⟨year, month, rest + 1⟩

def epoch : Int := 719528

end MailDispatch.Time.Calendar
