import ContentProbe.Decimal.Shortest
import ContentProbe.Text.Quoted
import ContentProbe.Trace.Ids
import ContentProbe.Trace.Wire

/-!
Well-formed spans. A reported span is taken when its ids have their lengths and are not zero, it has a
start and does not end before it, no attribute lacks a key and every event has a time; the first check
that fails is the fault. Attributes keep scalars only, the last one of a key.
-/

namespace ContentProbe

open ContentProbe.Text

inductive Scalar where
  | string (text : String)
  | int (n : Int64)
  | double (bits : UInt64)
  | bool (value : Bool)
  deriving DecidableEq, Repr

def Scalar.ofValue? : Wire.Value → Option Scalar
  | .string text => some (.string text)
  | .int n => some (.int n)
  | .double bits => some (.double bits)
  | .bool value => some (.bool value)
  | .bytes _ | .array _ | .table _ | .empty => none

/-- The whole number that a double is, clamped to 64 bits; none for a fraction, an infinity or not a
number. -/
def wholeDouble? (bits : UInt64) : Option Int64 :=
  match Decimal.Parts.ofBits bits with
  | .finite negative significand exponent _ =>
      let scaled := significand * Nat.pow 2 exponent.toNat
      let unit := Nat.pow 2 (-exponent).toNat
      if scaled % unit ≠ 0 then none
      else
        let n : Int := if negative then -((scaled / unit : Nat) : Int) else (scaled / unit : Nat)
        some (Int64.ofInt (max (-Int.pow 2 63) (min n (Int.pow 2 63 - 1))))
  | .infinite _ | .notANumber => none

/-- Attributes by key, in the order of the keys and with one value each. -/
structure Attributes where
  entries : List (String × Scalar)
  deriving DecidableEq, Repr

namespace Attributes

def empty : Attributes := ⟨[]⟩

def insertEntry (key : String) (value : Scalar) : List (String × Scalar) → List (String × Scalar)
  | [] => [(key, value)]
  | (k, v) :: rest =>
      if key < k then (key, value) :: (k, v) :: rest
      else if key = k then (key, value) :: rest
      else (k, v) :: insertEntry key value rest

/-- Stores a value in place of any earlier one of its key. -/
def insert (a : Attributes) (key : String) (value : Scalar) : Attributes :=
  ⟨insertEntry key value a.entries⟩

def get? (a : Attributes) (key : String) : Option Scalar := a.entries.lookup key

def string? (a : Attributes) (key : String) : Option String :=
  match a.get? key with
  | some (.string text) => some text
  | _ => none

/-- The whole number stored under a key, be it a number or a text of one. -/
def int? (a : Attributes) (key : String) : Option Int64 :=
  match a.get? key with
  | some (.int n) => some n
  | some (.double bits) => wholeDouble? bits
  | some (.string text) => readInt64? text.toList
  | _ => none

def hasString (a : Attributes) (key value : String) : Bool := a.string? key == some value

/-- Stores a reported attribute when its value is a scalar. -/
def push (a : Attributes) (w : Wire.Attribute) : Attributes :=
  match w.value.bind Scalar.ofValue? with
  | some scalar => a.insert w.key scalar
  | none => a

/-- The scalars of reported attributes, the last one of a key; none where a key is empty. -/
def ofWire? (attributes : List Wire.Attribute) : Option Attributes :=
  if attributes.any (·.key.isEmpty) then none else some (attributes.foldl push empty)

end Attributes

structure Event where
  name : String
  time : Nat
  attributes : Attributes
  deriving DecidableEq, Repr

/-- A well-formed span. Times are nanoseconds since the start of 1970; a parent of zero is none. -/
structure Span where
  trace : TraceId
  id : SpanId
  parent : SpanId
  name : String
  start : Nat
  finish : Nat
  attributes : Attributes
  events : List Event
  deriving DecidableEq, Repr

namespace Span

inductive Fault where
  | traceId (size : Nat)
  | spanId (size : Nat)
  | noStart (span : String)
  | endBeforeStart (span : String) (start finish : Nat)
  | emptyKey (span : String)
  | noEventTime (span event : String)
  deriving DecidableEq, Repr

def Fault.message : Fault → String
  | .traceId size => "invalid trace id of " ++ toString size ++ " bytes"
  | .spanId size => "invalid span id of " ++ toString size ++ " bytes"
  | .noStart span => "span " ++ quoted span ++ " has no start time"
  | .endBeforeStart span start finish =>
      "span " ++ quoted span ++ " ends at " ++ toString finish ++ " before it starts at " ++
        toString start
  | .emptyKey span => "span " ++ quoted span ++ " has an attribute without key"
  | .noEventTime span event =>
      "event " ++ quoted event ++ " of span " ++ quoted span ++ " has no timestamp"

def attributesOf (span : String) (attributes : List Wire.Attribute) : Except Fault Attributes :=
  match Attributes.ofWire? attributes with
  | some a => .ok a
  | none => .error (.emptyKey span)

/-- Checks the time before the attributes. -/
def eventOf (span : String) (e : Wire.Event) : Except Fault Event := do
  if e.time = 0 then throw (.noEventTime span e.name)
  return ⟨e.name, e.time.toNat, ← attributesOf span e.attributes⟩

/-- The span that was reported, or the first check that it fails. -/
def ofWire (s : Wire.Span) : Except Fault Span := do
  let some trace := (TraceId.ofBytes? s.traceId).filter (!·.isZero)
    | throw (.traceId s.traceId.length)
  let some id := (SpanId.ofBytes? s.spanId).filter (!·.isZero)
    | throw (.spanId s.spanId.length)
  if s.start = 0 then throw (.noStart s.name)
  if s.finish < s.start then throw (.endBeforeStart s.name s.start.toNat s.finish.toNat)
  let attributes ← attributesOf s.name s.attributes
  let events ← s.events.mapM (eventOf s.name)
  return ⟨trace, id, (SpanId.ofBytes? s.parentId).getD .zero, s.name, s.start.toNat,
    s.finish.toNat, attributes, events⟩

def eventsNamed (s : Span) (name : String) : List Event := s.events.filter (·.name == name)

end Span

/-- The nanoseconds between the start of 1970 and a time, modulo 2^64; zero for a time before it. -/
def unixNanos (seconds nanos : Nat) (beforeEpoch : Bool) : UInt64 :=
  if beforeEpoch then 0 else UInt64.ofNat (seconds * 1000000000 + nanos)

end ContentProbe
