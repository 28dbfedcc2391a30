/-!
Unsigned variable length integers: seven bits a byte, the lowest first, the high bit set on every byte
but the last. At most ten bytes are read, the last of several may not be zero, and the value is
taken modulo 2^64. Writing gives the one form that reading takes for a number.
-/

namespace ContentProbe.ContentId.Varint

inductive Fault where
  | ended
  | malformed
  deriving DecidableEq, Repr

/-- The most bytes a 64 bit number takes. -/
def maxBytes : Nat := 10

/-- Reads on after `maxBytes - room` bytes. -/
def readFrom : Nat → List UInt8 → Except Fault (Nat × List UInt8)
  | 0, _ => .error .malformed
  | _ + 1, [] => .error .ended
  | room + 1, b :: rest =>
      if b < 128 then
        if b = 0 ∧ room + 1 < maxBytes then .error .malformed else .ok (b.toNat, rest)
      else do
        let (high, rest) ← readFrom room rest
        return (b.toNat - 128 + 128 * high, rest)

/-- The number at the head of the bytes and what follows it. -/
def read (bytes : List UInt8) : Except Fault (UInt64 × List UInt8) := do
  let (value, rest) ← readFrom maxBytes bytes
  return (UInt64.ofNat value, rest)

def writeNat (n : Nat) : List UInt8 :=
  if n < 128 then [UInt8.ofNat n]
  else UInt8.ofNat (n % 128 + 128) :: writeNat (n / 128)
termination_by n

def write (n : UInt64) : List UInt8 := writeNat n.toNat

end ContentProbe.ContentId.Varint
