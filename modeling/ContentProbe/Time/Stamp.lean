import ContentProbe.Text.Blank
import ContentProbe.Text.Digits
import ContentProbe.Time.Calendar

/-!
Points in time and their text in RFC 3339. Writing gives the time in UTC with a closing `Z` and 0, 3, 6 or
9 digits of a second. Reading takes any offset, blanks around the parts of a date and a time, one or two
digits a part, a space or either case of the letters `T` and `Z`, and a leap second.
-/

namespace ContentProbe.Time

open ContentProbe.Text

/-- A point in time in UTC. A leap second is counted in the nanoseconds, which then reach two
seconds. -/
structure Stamp where
  day : Int
  second : Nat
  nano : Nat
  deriving DecidableEq, Repr

namespace Stamp

def secondsPerDay : Nat := 86400

def nanosPerSecond : Nat := 1000000000

/-- The point so many nanoseconds after the start of 1970. -/
def ofNanos (n : Nat) : Stamp :=
  let seconds := n / nanosPerSecond
  ⟨(seconds / secondsPerDay : Nat), seconds % secondsPerDay, n % nanosPerSecond⟩

def yearText (year : Int) : List Char :=
  if 0 ≤ year ∧ year ≤ 9999 then paddedText 4 year.toNat
  else
    let digits := natText year.natAbs
    (if year < 0 then '-' else '+') :: List.replicate (4 - digits.length) '0' ++ digits

/-- The digits of a second that are not zero, in groups of three. -/
def fractionText (nano : Nat) : List Char :=
  if nano = 0 then []
  else if nano % 1000000 = 0 then '.' :: paddedText 3 (nano / 1000000)
  else if nano % 1000 = 0 then '.' :: paddedText 6 (nano / 1000)
  else '.' :: paddedText 9 nano

def render (t : Stamp) : List Char :=
  let date := Date.ofDay t.day
  let leap := t.nano / nanosPerSecond
  yearText date.year ++ '-' :: paddedText 2 date.month ++ '-' :: paddedText 2 date.day ++
    'T' :: paddedText 2 (t.second / 3600) ++ ':' :: paddedText 2 (t.second / 60 % 60) ++
    ':' :: paddedText 2 (t.second % 60 + leap) ++ fractionText (t.nano % nanosPerSecond) ++ ['Z']

/-- The digits at the head of a text, `most` of them at most and one at least. -/
def readUpTo (most : Nat) (cs : List Char) : Option (Nat × List Char) :=
  let digits := (cs.take most).takeWhile fun c => (digit? c).isSome
  if digits.isEmpty then none
  else (readDigits? digits).map fun n => (n, cs.drop digits.length)

/-- A number after any blanks. -/
def readPart (cs : List Char) : Option (Nat × List Char) := readUpTo 2 (trimStart cs)

/-- A year after any blanks: four digits at most, or any number of them after a sign. -/
def readYear (cs : List Char) : Option (Int × List Char) :=
  match trimStart cs with
  | '-' :: rest => (readUpTo rest.length rest).map fun (n, rest) => (-(n : Int), rest)
  | '+' :: rest => (readUpTo rest.length rest).map fun (n, rest) => ((n : Int), rest)
  | cs => (readUpTo 4 cs).map fun (n, rest) => ((n : Int), rest)

/-- What follows a character, blanks before it apart. -/
def afterChar? (c : Char) (cs : List Char) : Option (List Char) :=
  match trimStart cs with
  | d :: rest => if c = d then some rest else none
  | [] => none

/-- The nanoseconds after a point, if there is one. Digits beyond the ninth are skipped. -/
def readNanos (cs : List Char) : Option (Nat × List Char) :=
  match cs with
  | '.' :: rest => do
      let (n, after) ← readUpTo 9 rest
      let count := rest.length - after.length
      return (n * Nat.pow 10 (9 - count), after.dropWhile fun c => (digit? c).isSome)
  | _ => some (0, cs)

/-- The offset from UTC in seconds: a letter, or a sign, two digits of hours, any colons and blanks, and
two digits of minutes. -/
def readOffset (cs : List Char) : Option (Int × List Char) := do
  let letters := (cs.take 3).map Char.toUpper
  if letters = ['U', 'T', 'C'] then return (0, cs.drop 3)
  match cs with
  | 'Z' :: rest | 'z' :: rest => return (0, rest)
  | sign :: h :: k :: rest =>
      if ¬(sign = '+' ∨ sign = '-' ∨ sign = '−') then none
      let hours := (← digit? h) * 10 + (← digit? k)
      match rest.dropWhile fun c => c == ':' || isBlank c with
      | m :: n :: rest =>
          let tens ← digit? m
          if 6 ≤ tens then none
          let seconds : Int := hours * 3600 + (tens * 10 + (← digit? n)) * 60
          return (if sign = '+' then seconds else -seconds, rest)
      | _ => none
  | _ => none

/-- The years that have dates. -/
def minYear : Int := -262143

def maxYear : Int := 262142

def hasYear (day : Int) : Bool :=
  let year := (Date.ofDay day).year
  minYear ≤ year && year ≤ maxYear

/-- Shifts a local time to UTC. The offset is shorter than a day. -/
def shift (t : Stamp) (offset : Int) : Stamp :=
  let seconds := (t.second : Int) - offset
  ⟨t.day + seconds / secondsPerDay, (seconds % secondsPerDay).toNat, t.nano⟩

/-- A time of a day. The sixtieth second is a leap second. -/
structure Clock where
  hour : Nat
  minute : Nat
  second : Nat
  nano : Nat
  deriving DecidableEq, Repr

def readDate (cs : List Char) : Option (Date × List Char) := do
  let (year, cs) ← readYear cs
  let cs ← afterChar? '-' cs
  let (month, cs) ← readPart cs
  let cs ← afterChar? '-' cs
  let (day, cs) ← readPart cs
  return (⟨year, month, day⟩, cs)

def readClock (cs : List Char) : Option (Clock × List Char) := do
  let (hour, cs) ← readPart cs
  let cs ← afterChar? ':' cs
  let (minute, cs) ← readPart cs
  let cs ← afterChar? ':' cs
  let (second, cs) ← readPart cs
  let (nano, cs) ← readNanos cs
  return (⟨hour, minute, second, nano⟩, cs)

/-- What stands between a date and a time. -/
def isSeparator (c : Char) : Bool := c == 'T' || c == 't' || c == ' '

/-- The point of a local time at an offset, if these exist. -/
def ofLocal? (date : Date) (clock : Clock) (offset : Int) : Option Stamp :=
  let leap := clock.second = 60
  let second := clock.hour * 3600 + clock.minute * 60 + if leap then 59 else clock.second
  let t := Stamp.mk date.toDay second (clock.nano + if leap then nanosPerSecond else 0)
  let utc := t.shift offset
  if date.isValid ∧ minYear ≤ date.year ∧ date.year ≤ maxYear ∧ clock.hour < 24 ∧ clock.minute < 60 ∧
      clock.second ≤ 60 ∧ offset.natAbs < secondsPerDay ∧ hasYear utc.day then
    some utc
  else none

def read? (cs : List Char) : Option Stamp := do
  let (date, cs) ← readDate cs
  let (clock, cs) ← match cs with
    | c :: rest => if isSeparator c then readClock rest else none
    | [] => none
  let (offset, cs) ← readOffset (trimStart cs)
  if (trimStart cs).isEmpty then ofLocal? date clock offset else none

end Stamp

end ContentProbe.Time
