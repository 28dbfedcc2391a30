import ContentProbe.Settings.Environment

/-!
Settings of the collector of trace batches and of probe runs. Lengths of time are nanoseconds. Defaults
give way to environment variables, which tell whole milliseconds, and these to settings made by the caller.
-/

namespace ContentProbe

open ContentProbe.Time

structure CollectorSettings where
  queueSize : Nat
  sendTimeout : Nat
  dumpDirectory : Option String
  forwardEndpoint : Option String
  deriving DecidableEq, Repr

/-- Settings that a caller makes, of which any may be missing. -/
structure CollectorChoice where
  queueSize : Option Nat
  sendTimeout : Option Nat
  dumpDirectory : Option String
  forwardEndpoint : Option String
  deriving DecidableEq, Repr

namespace CollectorSettings

/-- The queue holds one match at least. -/
def build (e : Environment) (choice : CollectorChoice) : CollectorSettings where
  queueSize := max 1 ((choice.queueSize <|> e.word? "TIROS_MATCH_QUEUE_SIZE").getD 32)
  sendTimeout := (choice.sendTimeout <|> e.milliseconds? "TIROS_MATCH_SEND_TIMEOUT").getD (10 * second)
  dumpDirectory := choice.dumpDirectory <|> e.verbatim? "TIROS_TRACES_OUT"
  forwardEndpoint := choice.forwardEndpoint <|> e.verbatim? "TIROS_TRACES_FORWARD_ENDPOINT"

end CollectorSettings

structure RunSettings where
  uploadDrain : Nat
  uploadAction : Nat
  downloadDrain : Nat
  downloadAction : Nat
  tailWait : Nat
  maxBytes : Nat
  deriving DecidableEq, Repr

/-- Settings that a caller makes, of which any may be missing. -/
structure RunChoice where
  uploadDrain : Option Nat
  uploadAction : Option Nat
  downloadDrain : Option Nat
  downloadAction : Option Nat
  tailWait : Option Nat
  maxBytes : Option Nat
  deriving DecidableEq, Repr

namespace RunSettings

def build (e : Environment) (choice : RunChoice) : RunSettings where
  uploadDrain := (choice.uploadDrain <|> e.milliseconds? "TIROS_UPLOAD_DRAIN_TIMEOUT").getD (60 * second)
  uploadAction := (choice.uploadAction <|> e.milliseconds? "TIROS_UPLOAD_ACTION_TIMEOUT").getD (60 * second)
  downloadDrain :=
    (choice.downloadDrain <|> e.milliseconds? "TIROS_DOWNLOAD_DRAIN_TIMEOUT").getD (30 * second)
  downloadAction :=
    (choice.downloadAction <|> e.milliseconds? "TIROS_DOWNLOAD_ACTION_TIMEOUT").getD (10 * second)
  tailWait := (choice.tailWait <|> e.milliseconds? "TIROS_DOWNLOAD_TAIL_WAIT").getD (12 * second)
  maxBytes := (choice.maxBytes <|> e.word? "TIROS_DOWNLOAD_MAX_BYTES").getD 104857600

end RunSettings

end ContentProbe
