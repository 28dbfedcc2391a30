import ContentProbe.Decimal.Shortest
import ContentProbe.Json.Value

/-!
Doubles as JSON numbers. A double is written with its shortest decimal: in positional notation while
its point stands at most five places before its first digit or sixteen after it, with one digit after
the point at least, and with a signed exponent otherwise. What is not finite is `null`. Reading takes the
digits that fit into 64 bits and scales them in one step.
-/

namespace ContentProbe

open ContentProbe.Text

namespace Json

def numeralOfScaled (negative : Bool) (d : Decimal.Scaled) : Numeral :=
  let count := Decimal.digitCount d.digits
  let point := count + d.exponent
  let digits := digitsFixed 10 count d.digits
  if 0 ≤ d.exponent ∧ point ≤ 16 then
    ⟨negative, d.digits * Nat.pow 10 d.exponent.toNat, [0], none⟩
  else if 0 < point ∧ point ≤ 16 then
    ⟨negative, ofDigits 10 (digits.take point.toNat), digits.drop point.toNat, none⟩
  else if -5 < point ∧ point ≤ 0 then
    ⟨negative, 0, List.replicate (-point).toNat 0 ++ digits, none⟩
  else ⟨negative, ofDigits 10 (digits.take 1), digits.drop 1, some (point - 1)⟩

/-- A number, or `null` for what is not finite. -/
def ofDouble (x : Float) : Json :=
  match Decimal.Parts.ofBits x.toBits with
  | .finite negative significand exponent narrow =>
      if significand = 0 then .number ⟨negative, 0, [0], none⟩
      else .number (numeralOfScaled negative (Decimal.shortest significand exponent narrow))
  | .infinite _ | .notANumber => .null

/-- The leading digits of a literal that fit into 64 bits, and the power of ten that the others leave. -/
structure Significand where
  value : Nat
  exponent : Int

/-- One more digit of the whole part. Once a digit does not fit, all that follow only shift. -/
def Significand.pushWhole (s : Significand × Bool) (d : Nat) : Significand × Bool :=
  let (⟨value, exponent⟩, full) := s
  if !full && value * 10 + d < Nat.pow 2 64 then (⟨value * 10 + d, exponent⟩, false)
  else (⟨value, exponent + 1⟩, true)

/-- The digits after the point, up to the first that does not fit. -/
def Significand.pushFraction : Significand → List Nat → Significand
  | s, [] => s
  | s, d :: ds =>
      if s.value * 10 + d < Nat.pow 2 64 then pushFraction ⟨s.value * 10 + d, s.exponent - 1⟩ ds else s

/-- Scales by a power of ten. The largest table entry divides a first time where the exponent lies
below the table; nothing is returned where the result is too large. -/
def scale? : Nat → Float → Int → Option Float
  | 0, x, _ => some x
  | fuel + 1, x, exponent =>
      if exponent.natAbs ≤ 308 then
        let power := Float.ofScientific 1 false exponent.natAbs
        if 0 ≤ exponent then
          let y := x * power
          if y.isInf then none else some y
        else some (x / power)
      else if x == 0.0 then some x
      else if 0 ≤ exponent then none
      else scale? fuel (x / Float.ofScientific 1 false 308) (exponent + 308)

end Json

/-- The double that a literal denotes, unless it is too large. -/
def Numeral.toDouble? (n : Numeral) : Option Float :=
  let count := Decimal.digitCount n.whole
  let start : Json.Significand × Bool := (⟨0, 0⟩, false)
  let whole := ((digitsFixed 10 count n.whole).foldl Json.Significand.pushWhole start).1
  let s := whole.pushFraction n.fraction
  let exponent := s.exponent + n.exponent.getD 0
  (Json.scale? (exponent.natAbs / 308 + 2) (UInt64.ofNat s.value).toFloat exponent).map
    fun x => if n.negative then -x else x

end ContentProbe
