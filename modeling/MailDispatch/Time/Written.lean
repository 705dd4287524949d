import MailDispatch.Time.Timestamp

/-! # The written form of a timestamp

The date and the time of day in coordinated time, with a fraction of three, six or
nine digits where there is one. Years of more than four digits, and those before
the year zero, have a sign.
-/
namespace MailDispatch.Time.Timestamp
open Text Calendar

def date (t : Timestamp) : Date := dateOf (t.second / 86400 + epoch)

def secondOfDay (t : Timestamp) : Nat := (t.second % 86400).toNat

def writtenYear (year : Int) : List Char :=
  if 0 ≤ year ∧ year ≤ 9999 then Numeral.padded 4 year.toNat
  else (if year < 0 then '-' else '+') :: Numeral.padded 4 year.natAbs

def writtenFraction (nano : Nat) : List Char :=
  if nano = 0 then []
  else if nano % 1000000 = 0 then '.' :: Numeral.padded 3 (nano / 1000000)
  else if nano % 1000 = 0 then '.' :: Numeral.padded 6 (nano / 1000)
  else '.' :: Numeral.padded 9 nano

/-- The second within the minute and the fraction; a leap second is the sixtieth. -/
def writtenSecond (second nano : Nat) : Nat × Nat :=
  if 1000000000 ≤ nano then (second + 1, nano - 1000000000) else (second, nano)

def written (t : Timestamp) : List Char :=
  let d := t.date
  let s := t.secondOfDay
  let (second, nano) := writtenSecond (s % 60) t.nano
  writtenYear d.year ++ '-' :: Numeral.padded 2 d.month ++ '-' :: Numeral.padded 2 d.day ++
    'T' :: Numeral.padded 2 (s / 3600) ++ ':' :: Numeral.padded 2 (s / 60 % 60) ++
    ':' :: Numeral.padded 2 second ++ writtenFraction nano ++ ['Z']

def text (t : Timestamp) : String := String.ofList t.written

end MailDispatch.Time.Timestamp
