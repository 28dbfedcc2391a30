import ContentProbe.Trace.Ids
import ContentProbe.Trace.Wire

/-!
Matchers: predicates over reported spans that tie telemetry to the probe that waits for it. They look at
the span as it was reported, so that a malformed one can match too.
-/

namespace ContentProbe

inductive Matcher where
  | traceId (trace : TraceId)
  | attribute (key value : String)
  | name (text : String)
  deriving DecidableEq, Repr

namespace Matcher

/-- The attribute has the key and the string. -/
def isString (key value : String) (a : Wire.Attribute) : Bool :=
  a.key == key &&
    match a.value with
    | some (.string text) => text == value
    | _ => false

/-- Trace ids compare byte for byte, attributes count when any one of the key has the string. -/
def holds : Matcher → Wire.Span → Bool
  | .traceId trace, s => s.traceId == trace.toBytes
  | .attribute key value, s => s.attributes.any (isString key value)
  | .name text, s => s.name == text

/-- The position of the first matcher that a span satisfies. -/
def hit? (matchers : List Matcher) (s : Wire.Span) : Option Nat :=
  matchers.findIdx? (·.holds s)

/-- The position of the matcher that the first matching span of a batch satisfies. -/
def firstHit? (matchers : List Matcher) (b : Wire.Batch) : Option Nat :=
  b.spans.findSome? (hit? matchers)

end Matcher

end ContentProbe
