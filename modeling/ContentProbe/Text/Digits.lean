/-!
Whole numbers as text. A number is read in decimal with an optional sign and no other decoration, and
written without leading zeros; digits of a fixed count write a word in any base.
-/

namespace ContentProbe.Text

def digit? (c : Char) : Option Nat :=
  if '0' ≤ c ∧ c ≤ '9' then some (c.toNat - '0'.toNat) else none

/-- The value of a hexadecimal digit of either case. -/
def hexDigit? (c : Char) : Option Nat :=
  if '0' ≤ c ∧ c ≤ '9' then some (c.toNat - '0'.toNat)
  else if 'a' ≤ c ∧ c ≤ 'f' then some (c.toNat - 'a'.toNat + 10)
  else if 'A' ≤ c ∧ c ≤ 'F' then some (c.toNat - 'A'.toNat + 10)
  else none

/-- The lower case character of a digit below sixteen. -/
def hexChar (d : Nat) : Char :=
  if d < 10 then Char.ofNat ('0'.toNat + d) else Char.ofNat ('a'.toNat + (d - 10))

/-- The number that digits denote, the most significant first. -/
def ofDigits (base : Nat) (ds : List Nat) : Nat := ds.foldl (fun n d => n * base + d) 0

/-- The lowest `count` digits of `n`, the most significant first. -/
def digitsFixed (base : Nat) : Nat → Nat → List Nat
  | 0, _ => []
  | count + 1, n => digitsFixed base count (n / base) ++ [n % base]

def natText (n : Nat) : List Char := Nat.toDigits 10 n

def intText : Int → List Char
  | .ofNat n => natText n
  | .negSucc n => '-' :: natText (n + 1)

/-- Decimal text of exactly `count` digits. -/
def paddedText (count n : Nat) : List Char := (digitsFixed 10 count n).map hexChar

/-- Lower case hexadecimal text of exactly `count` digits. -/
def hexText (count n : Nat) : List Char := (digitsFixed 16 count n).map hexChar

/-- One or more decimal digits and nothing else. -/
def readDigits? (cs : List Char) : Option Nat :=
  if cs.isEmpty then none else (cs.mapM digit?).map (ofDigits 10)

/-- A number below `bound`: one plus sign at most, then digits. -/
def readNat? (bound : Nat) (cs : List Char) : Option Nat :=
  let digits := match cs with
    | '+' :: rest => rest
    | _ => cs
  (readDigits? digits).filter (· < bound)

/-- A 64 bit signed number: one sign at most, then digits. -/
def readInt64? (cs : List Char) : Option Int64 :=
  let value : Option Int := match cs with
    | '+' :: rest => (readDigits? rest).map Int.ofNat
    | '-' :: rest => (readDigits? rest).map fun n => -Int.ofNat n
    | _ => (readDigits? cs).map Int.ofNat
  (value.filter fun n => -Int.pow 2 63 ≤ n && n < Int.pow 2 63).map Int64.ofInt

end ContentProbe.Text
