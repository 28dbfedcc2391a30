import ContentProbe.Time.Elapsed

/-!
Timers under a clock that shows whole milliseconds. A timer may be set to any instant, and rings at the first
whole millisecond that is not before it.
-/

namespace ContentProbe.Time

/-- The first whole millisecond that is not before an instant. -/
def tick (instant : Nat) : Nat := (instant + (millisecond - 1)) / millisecond * millisecond

end ContentProbe.Time
