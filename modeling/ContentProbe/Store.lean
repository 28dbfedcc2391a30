import ContentProbe.Trace.Span

/-!
The spans of a probe. A store has two areas: the tracked traces, which measurements read, and the pending
spans of all other traces, which wait until their trace is tracked or they are discarded. In either
area the first span of a trace and span id stays.
-/

namespace ContentProbe

/-- Spans by trace, in the order in which the traces came; the spans of a trace have distinct ids. A trace
may be there without spans. -/
structure Area where
  traces : List (TraceId × List Span)
  deriving DecidableEq, Repr

namespace Area

def empty : Area := ⟨[]⟩

def get? (a : Area) (trace : TraceId) : Option (List Span) := a.traces.lookup trace

def contains (a : Area) (trace : TraceId) : Bool := (a.get? trace).isSome

def spans (a : Area) : List Span := a.traces.flatMap (·.2)

/-- The span stored under a trace and a span id. -/
def span? (a : Area) (trace : TraceId) (id : SpanId) : Option Span :=
  (a.get? trace).bind (·.find? (·.id = id))

def pushEntry (s : Span) : List (TraceId × List Span) → List (TraceId × List Span)
  | [] => [(s.trace, [s])]
  | (trace, spans) :: rest =>
      if trace = s.trace then (trace, spans ++ [s]) :: rest else (trace, spans) :: pushEntry s rest

def push (a : Area) (s : Span) : Area := ⟨pushEntry s a.traces⟩

/-- Adds a trace with its spans behind the others. -/
def pushTrace (a : Area) (trace : TraceId) (spans : List Span) : Area :=
  ⟨a.traces ++ [(trace, spans)]⟩

def erase (a : Area) (trace : TraceId) : Area := ⟨a.traces.filter (·.1 ≠ trace)⟩

end Area

/-- From the earliest start to the latest end of some spans. -/
structure Interval where
  start : Nat
  finish : Nat
  deriving DecidableEq, Repr

def Interval.widen : Option Interval → Span → Option Interval
  | none, s => some ⟨s.start, s.finish⟩
  | some i, s => some ⟨min i.start s.start, max i.finish s.finish⟩

def Interval.ofSpans? (spans : List Span) : Option Interval := spans.foldl Interval.widen none

structure Store where
  tracked : Area
  pending : Area
  deriving DecidableEq, Repr

/-- What became of the spans of a batch. -/
structure Intake where
  accepted : Nat
  duplicates : Nat
  malformed : Nat
  deriving DecidableEq, Repr

namespace Intake

def zero : Intake := ⟨0, 0, 0⟩

def total (i : Intake) : Nat := i.accepted + i.duplicates + i.malformed

end Intake

namespace Store

/-- A store that tracks the given traces and holds no span. -/
def tracking (traces : List TraceId) : Store :=
  ⟨⟨traces.eraseDups.map fun t => (t, [])⟩, .empty⟩

def isTracked (s : Store) (trace : TraceId) : Bool := s.tracked.contains trace

/-- All spans, the tracked ones first. -/
def allSpans (s : Store) : List Span := s.tracked.spans ++ s.pending.spans

/-- Stores a span unless its trace and span id are taken in the area of its trace. -/
def insert (s : Store) (span : Span) : Store × Bool :=
  if s.isTracked span.trace then
    if (s.tracked.span? span.trace span.id).isSome then (s, false)
    else ({ s with tracked := s.tracked.push span }, true)
  else if (s.pending.span? span.trace span.id).isSome then (s, false)
  else ({ s with pending := s.pending.push span }, true)

def take (state : Store × Intake) (w : Wire.Span) : Store × Intake :=
  let (s, i) := state
  match Span.ofWire w with
  | .error _ => (s, { i with malformed := i.malformed + 1 })
  | .ok span =>
      match s.insert span with
      | (s, true) => (s, { i with accepted := i.accepted + 1 })
      | (s, false) => (s, { i with duplicates := i.duplicates + 1 })

def ingest (s : Store) (b : Wire.Batch) : Store × Intake := b.spans.foldl take (s, .zero)

/-- Moves a trace and its pending spans into the tracked area; false when it is there already. -/
def track (s : Store) (trace : TraceId) : Store × Bool :=
  if s.isTracked trace then (s, false)
  else
    (⟨s.tracked.pushTrace trace ((s.pending.get? trace).getD []), s.pending.erase trace⟩, true)

def trackAll (s : Store) (traces : List TraceId) : Store :=
  traces.foldl (fun s t => (s.track t).1) s

def discardPending (s : Store) : Store := { s with pending := .empty }

def traceInterval? (s : Store) (trace : TraceId) : Option Interval :=
  (s.tracked.get? trace).bind Interval.ofSpans?

def interval? (s : Store) : Option Interval := Interval.ofSpans? s.tracked.spans

end Store

end ContentProbe
