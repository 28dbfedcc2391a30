import ContentProbe.Text.Digits

/-!
Lengths of time in nanoseconds: their text in the largest unit that leaves a whole part, and their
value in seconds as a double.
-/

namespace ContentProbe.Time

open ContentProbe.Text

def millisecond : Nat := 1000000

def second : Nat := 1000000000

/-- A whole part and the digits of a remainder over `10 ^ places`, without zeros at the end. -/
def decimalText (whole rest places : Nat) : List Char :=
  let digits := ((paddedText places rest).reverse.dropWhile (· == '0')).reverse
  natText whole ++ if digits.isEmpty then [] else '.' :: digits

def elapsedText (nanos : Nat) : String :=
  if second ≤ nanos then
    String.ofList (decimalText (nanos / second) (nanos % second) 9) ++ "s"
  else if millisecond ≤ nanos then
    String.ofList (decimalText (nanos / millisecond) (nanos % millisecond) 6) ++ "ms"
  else if 1000 ≤ nanos then String.ofList (decimalText (nanos / 1000) (nanos % 1000) 3) ++ "µs"
  else String.ofList (natText nanos) ++ "ns"

def inSeconds (nanos : Nat) : Float :=
  (nanos / second).toUInt64.toFloat + (nanos % second).toUInt64.toFloat / 1e9

/-- The seconds from one time to another, below zero when the second is the earlier. -/
def secondsBetween (start finish : Nat) : Float :=
  if start ≤ finish then inSeconds (finish - start) else -inSeconds (start - finish)

end ContentProbe.Time
