/-!
The shortest decimal of a double: the fewest digits that lie in the interval of reals that round to it,
and of those the nearest to its value. The interval has its ends in it when the significand is even.
All of it is arithmetic on whole numbers over the significand and the power of two.
-/

namespace ContentProbe.Decimal

/-- A double taken apart. A finite one is `significand * 2 ^ exponent`; `narrow` says that its lower
neighbour is only half as far away as the upper one. -/
inductive Parts where
  | finite (negative : Bool) (significand : Nat) (exponent : Int) (narrow : Bool)
  | infinite (negative : Bool)
  | notANumber
  deriving DecidableEq, Repr

def Parts.ofBits (bits : UInt64) : Parts :=
  let n := bits.toNat
  let negative : Bool := Nat.pow 2 63 ≤ n
  let field : Nat := n / Nat.pow 2 52 % Nat.pow 2 11
  let fraction : Nat := n % Nat.pow 2 52
  if field = 2047 then if fraction = 0 then .infinite negative else .notANumber
  else if field = 0 then .finite negative fraction (-1074) false
  else .finite negative (Nat.pow 2 52 + fraction) ((field : Int) - 1075) (fraction = 0 && 1 < field)

/-- A decimal `digits * 10 ^ exponent`. -/
structure Scaled where
  digits : Nat
  exponent : Int
  deriving DecidableEq, Repr

/-- A positive fraction over which a double and the ends of its interval are whole numbers. -/
structure Interval where
  low : Nat
  value : Nat
  high : Nat
  denominator : Nat
  closed : Bool

/-- The reals that round to a positive double. -/
def Interval.around (significand : Nat) (exponent : Int) (narrow : Bool) : Interval :=
  let up := Nat.pow 2 (exponent - 2).toNat
  ⟨(4 * significand - if narrow then 1 else 2) * up, 4 * significand * up,
    (4 * significand + 2) * up, Nat.pow 2 (2 - exponent).toNat, significand % 2 = 0⟩

def digitCount (n : Nat) : Nat := if n < 10 then 1 else digitCount (n / 10) + 1
termination_by n

/-- How often a fraction has to be multiplied by ten to reach one, `fuel` times at most. -/
def shiftToOne : Nat → Nat → Nat → Nat
  | 0, _, _ => 0
  | fuel + 1, numerator, denominator =>
      if denominator ≤ numerator then 0 else shiftToOne fuel (10 * numerator) denominator + 1

/-- The exponent of the first digit. -/
def Interval.magnitude (i : Interval) : Int :=
  if i.denominator ≤ i.value then (digitCount (i.value / i.denominator) : Int) - 1
  else -(shiftToOne (4 * digitCount i.denominator) i.value i.denominator : Int)

/-- The decimal lies among the reals that round to the double. -/
def Interval.holds (i : Interval) (d : Scaled) : Bool :=
  let scale := Nat.pow 10 (-d.exponent).toNat
  let point := d.digits * Nat.pow 10 d.exponent.toNat * i.denominator
  let low := i.low * scale
  let high := i.high * scale
  if i.closed then low ≤ point && point ≤ high else low < point && point < high

/-- The better of the two neighbours of the value on the grid of `10 ^ exponent`, if one lies in the
interval. Of two the nearer wins, and of two as near the even one. -/
def Interval.onGrid? (i : Interval) (exponent : Int) : Option Scaled :=
  let numerator := i.value * Nat.pow 10 (-exponent).toNat
  let denominator := i.denominator * Nat.pow 10 exponent.toNat
  let below := numerator / denominator
  let rest := numerator % denominator
  let lower : Scaled := ⟨below, exponent⟩
  let upper : Scaled := ⟨below + 1, exponent⟩
  match i.holds lower, i.holds upper with
  | true, true =>
      if 2 * rest < denominator ∨ (2 * rest = denominator ∧ below % 2 = 0) then some lower
      else some upper
  | true, false => some lower
  | false, true => some upper
  | false, false => none

def Scaled.trimmed (d : Scaled) : Scaled :=
  if d.digits ≠ 0 ∧ d.digits % 10 = 0 then Scaled.trimmed ⟨d.digits / 10, d.exponent + 1⟩ else d
termination_by d.digits
decreasing_by simp_all; omega

/-- The first grid with a hit, of those with `count`, `count + 1`, … digits. -/
def Interval.shortestFrom (i : Interval) : Nat → Nat → Scaled
  | 0, _ => ⟨i.value / i.denominator, 0⟩
  | fuel + 1, count =>
      match i.onGrid? (i.magnitude + 1 - count) with
      | some d => d.trimmed
      | none => shortestFrom i fuel (count + 1)

/-- The shortest decimal of a positive double. Seventeen digits always suffice. -/
def shortest (significand : Nat) (exponent : Int) (narrow : Bool) : Scaled :=
  (Interval.around significand exponent narrow).shortestFrom 17 1

end ContentProbe.Decimal
