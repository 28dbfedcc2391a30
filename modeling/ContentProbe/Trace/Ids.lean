import ContentProbe.Text.Bytes

/-!
Trace ids and span ids: words of 128 and 64 bits, carried as big-endian bytes and written as lower case
hexadecimal digits. Zero is no valid id of a span that is reported, but it is an id.
-/

namespace ContentProbe

open ContentProbe.Text

structure TraceId where
  word : BitVec 128
  deriving DecidableEq, Repr

structure SpanId where
  word : BitVec 64
  deriving DecidableEq, Repr

namespace TraceId

def toNat (t : TraceId) : Nat := t.word.toNat

def ofNat (n : Nat) : TraceId := ⟨BitVec.ofNat 128 n⟩

def isZero (t : TraceId) : Bool := t.toNat = 0

def toBytes (t : TraceId) : List UInt8 := bytesOfNat 16 t.toNat

/-- Sixteen bytes. -/
def ofBytes? (bytes : List UInt8) : Option TraceId :=
  if bytes.length = 16 then some (ofNat (natOfBytes bytes)) else none

/-- Thirty-two digits. -/
def hex (t : TraceId) : String := String.ofList (hexText 32 t.toNat)

end TraceId

namespace SpanId

def toNat (s : SpanId) : Nat := s.word.toNat

def ofNat (n : Nat) : SpanId := ⟨BitVec.ofNat 64 n⟩

def zero : SpanId := ofNat 0

def isZero (s : SpanId) : Bool := s.toNat = 0

/-- Eight bytes. -/
def ofBytes? (bytes : List UInt8) : Option SpanId :=
  if bytes.length = 8 then some (ofNat (natOfBytes bytes)) else none

/-- Sixteen digits. -/
def hex (s : SpanId) : String := String.ofList (hexText 16 s.toNat)

end SpanId

end ContentProbe
