import ContentProbe.Text.Digits

/-!
JSON documents as trees. Objects keep their fields in order and may repeat a key; numbers keep their
digits, so that what counts as a whole number stays visible; a string literal whose escapes leave half
of a surrogate pair denotes no text.
-/

namespace ContentProbe

/-- A number literal: sign, whole part, digits after the point, and exponent. A literal without a point
has no digits after it. -/
structure Numeral where
  negative : Bool
  whole : Nat
  fraction : List Nat
  exponent : Option Int
  deriving DecidableEq, Repr

/-- A JSON document. A literal of no text is `none`. -/
inductive Json where
  | null
  | bool (value : Bool)
  | number (value : Numeral)
  | string (text : Option String)
  | array (items : List Json)
  | object (fields : List (Option String × Json))
  deriving Repr, Inhabited

namespace Json

def text (s : String) : Json := .string (some s)

def ofNat (n : Nat) : Json := .number ⟨false, n, [], none⟩

def ofInt (n : Int) : Json := .number ⟨n < 0, n.natAbs, [], none⟩

/-- An object whose keys are given as texts. -/
def record (fields : List (String × Json)) : Json := .object (fields.map fun (k, v) => (some k, v))

/-- `null` for a value that is missing. -/
def optional {α : Type} (f : α → Json) : Option α → Json
  | none => .null
  | some a => f a

end Json

namespace Numeral

/-- Written without point and exponent. -/
def isWhole (n : Numeral) : Bool := n.fraction.isEmpty && n.exponent.isNone

/-- The number of a whole literal below `bound`. Minus zero is not a whole number. -/
def toNat? (bound : Nat) (n : Numeral) : Option Nat :=
  if n.isWhole ∧ ¬n.negative ∧ n.whole < bound then some n.whole else none

/-- The number of a whole literal in the range of 64 bit signed numbers. Minus zero is not a whole
number. -/
def toInt64? (n : Numeral) : Option Int64 :=
  if !n.isWhole then none
  else if n.negative then
    if 0 < n.whole ∧ n.whole ≤ Nat.pow 2 63 then some (Int64.ofInt (-(n.whole : Int))) else none
  else if n.whole < Nat.pow 2 63 then some (Int64.ofInt n.whole) else none

end Numeral

end ContentProbe
