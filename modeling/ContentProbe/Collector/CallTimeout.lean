import ContentProbe.Text.Digits
import ContentProbe.Time.Elapsed

/-!
The time that an export call grants for its answer, as its caller writes it: a number below 2^64 and one
letter for the unit, at most nine characters in all. Anything else grants no time of its own.
-/

namespace ContentProbe.CallTimeout

open ContentProbe.Text ContentProbe.Time

def unit? : Char → Option Nat
  | 'H' => some (3600 * second)
  | 'M' => some (60 * second)
  | 'S' => some second
  | 'm' => some millisecond
  | 'u' => some 1000
  | 'n' => some 1
  | _ => none

/-- The granted time in nanoseconds. -/
def read? (text : String) : Option Nat := do
  let cs := text.toList
  if cs.length < 2 || 9 < cs.length then none
  let amount ← readNat? (Nat.pow 2 64) cs.dropLast
  let unit ← cs.getLast?.bind unit?
  return amount * unit

end ContentProbe.CallTimeout
