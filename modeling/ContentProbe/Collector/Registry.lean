import ContentProbe.Matcher.Basic

/-!
The matchers of the session in progress, and what a scan of a batch against them finds. A batch is not
looked at while nothing is registered.
-/

namespace ContentProbe

/-- What a session has registered. An empty registry belongs to no session, which is written 0. -/
structure Registry where
  session : Nat
  matchers : List Matcher
  deriving DecidableEq, Repr

/-- What a scan finds: the index of the first matcher that a span satisfies, and its session. -/
inductive Scan where
  | skipped
  | unmatched
  | matched (index session : Nat)
  deriving DecidableEq, Repr

namespace Registry

def empty : Registry := ⟨0, []⟩

def scan (r : Registry) (b : Wire.Batch) : Scan :=
  if r.matchers.isEmpty then .skipped
  else match Matcher.firstHit? r.matchers b with
    | some index => .matched index r.session
    | none => .unmatched

end Registry

end ContentProbe
