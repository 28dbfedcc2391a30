import ContentProbe.Collector.Basic

/-!
A run of a probe takes turns. A turn looks at what is ready in a fixed order: cancellation, the end of the
action, the deadline of the drain, and last the match queue. It takes the first of these, or finds that
nothing is ready.
-/

namespace ContentProbe

/-- What a turn can see besides the queue: the instant, whether the probe is cancelled, and whether anybody
may still send a batch. -/
structure Moment where
  now : Nat
  cancelled : Bool
  isOpen : Bool
  deriving DecidableEq, Repr

inductive RunFault where
  | channelClosed
  deriving DecidableEq, Repr

def RunFault.message : RunFault → String
  | .channelClosed => "trace receiver closed the match channel"

def cancelledText : String := "probe cancelled"

/-- What a turn leads to. A finished run has given up its session. -/
inductive RunTurn (σ α : Type) where
  | blocked
  | next (c : Collector) (run : σ)
  | finished (c : Collector) (outcome : Except RunFault α)

/-- The session of a run ends. -/
def Collector.dismiss (c : Collector) : Collector := c.leave.release

end ContentProbe
