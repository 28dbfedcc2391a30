/-!
The proleptic Gregorian calendar over day numbers. Day 0 is the first of January 1970. The year is
estimated from the mean length of a year and corrected by one, the month is found by taking month
lengths away.
-/

namespace ContentProbe.Time

structure Date where
  year : Int
  month : Nat
  day : Nat
  deriving DecidableEq, Repr

def isLeap (year : Int) : Bool := year % 4 = 0 && (year % 100 ≠ 0 || year % 400 = 0)

/-- The days of the months of a year. -/
def monthLengths (year : Int) : List Nat :=
  [31, if isLeap year then 29 else 28, 31, 30, 31, 30, 31, 31, 30, 31, 30, 31]

/-- The days from the start of year 0 to the start of a year. -/
def yearStart (year : Int) : Int :=
  365 * year + (year + 3) / 4 - (year + 99) / 100 + (year + 399) / 400

/-- The number of the first day of 1970, counted from the start of year 0. -/
def epoch : Int := 719528

/-- The year of a day counted from the start of year 0. -/
def yearOf (day : Int) : Int :=
  let guess := day * 400 / 146097
  if day < yearStart guess then guess - 1
  else if yearStart (guess + 1) ≤ day then guess + 1
  else guess

/-- The month and the day in it of a day of the year, both from one. -/
def splitMonth : List Nat → Nat → Nat × Nat
  | [], n => (1, n + 1)
  | length :: rest, n =>
      if n < length then (1, n + 1)
      else
        let (month, day) := splitMonth rest (n - length)
        (month + 1, day)

namespace Date

def ofDay (day : Int) : Date :=
  let absolute := day + epoch
  let year := yearOf absolute
  let (month, dayOfMonth) := splitMonth (monthLengths year) (absolute - yearStart year).toNat
  ⟨year, month, dayOfMonth⟩

def isValid (d : Date) : Bool :=
  1 ≤ d.month && d.month ≤ 12 && 1 ≤ d.day && d.day ≤ (monthLengths d.year).getD (d.month - 1) 0

def toDay (d : Date) : Int :=
  let before : Nat := ((monthLengths d.year).take (d.month - 1)).foldr (· + ·) 0
  yearStart d.year + before + (d.day : Int) - 1 - epoch

end Date

end ContentProbe.Time
