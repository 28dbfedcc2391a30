import ContentProbe.Settings.Address
import ContentProbe.Settings.Environment

/-!
Settings of the probe loop, from environment variables alone. Texts are taken without the blanks around
them.
-/

namespace ContentProbe

open ContentProbe.Text

inductive ProbeMode where
  | both
  | uploadOnly
  | downloadOnly
  deriving DecidableEq, Repr

namespace ProbeMode

def uploads (m : ProbeMode) : Bool := m ≠ .downloadOnly

def downloads (m : ProbeMode) : Bool := m ≠ .uploadOnly

end ProbeMode

/-- Sizes are bytes, lengths of time milliseconds; no limit on iterations is zero. -/
structure ProbeSettings where
  fileSize : Nat
  interval : Nat
  maxIterations : Nat
  nodeEndpoint : String
  nodeWait : Nat
  collectorHost : Address
  collectorSocket : Nat
  recordDirectory : Option String
  dryRun : Bool
  mode : ProbeMode
  region : String
  contentIds : List String
  downloadsPerIteration : Nat
  deriving DecidableEq, Repr

namespace ProbeSettings

inductive Fault where
  | exclusiveModes
  | fileTooLarge (mebibytes : Nat)
  deriving DecidableEq, Repr

def uploadOnlyName : String := "TIROS_PROBE_UPLOAD_ONLY"

def downloadOnlyName : String := "TIROS_PROBE_DOWNLOAD_ONLY"

def fileSizeName : String := "TIROS_PROBE_UPLOAD_FILE_SIZE_MIB"

def Fault.message : Fault → String
  | .exclusiveModes => uploadOnlyName ++ " and " ++ downloadOnlyName ++ " are mutually exclusive"
  | .fileTooLarge n => fileSizeName ++ ": " ++ toString n ++ " MiB is too large"

def mebibyte : Nat := 1024 * 1024

def modeOf (e : Environment) : Except Fault ProbeMode :=
  match (e.flag? uploadOnlyName).getD false, (e.flag? downloadOnlyName).getD false with
  | false, false => .ok .both
  | true, false => .ok .uploadOnly
  | false, true => .ok .downloadOnly
  | true, true => .error .exclusiveModes

/-- The texts between commas that are not blank, without the blanks around them. -/
def splitList (value : String) : List String :=
  ((value.splitOn ",").map trimmed).filter (!·.isEmpty)

/-- The number of a socket has 16 bits. -/
def socketOf (e : Environment) (name : String) (default : Nat) : Nat :=
  (e.nat? (Nat.pow 2 16) name).getD default

/-- The mode is checked before the size of the file. -/
def build (e : Environment) : Except Fault ProbeSettings := do
  let mode ← modeOf e
  let nodeHost := (e.text? "TIROS_PROBE_KUBO_HOST").getD "127.0.0.1"
  let nodeSocket := socketOf e "TIROS_PROBE_KUBO_API_PORT" 5001
  let mebibytes := (e.word? fileSizeName).getD 100
  if Nat.pow 2 64 ≤ mebibytes * mebibyte then throw (.fileTooLarge mebibytes)
  return {
    fileSize := mebibytes * mebibyte
    interval := (e.word? "TIROS_PROBE_INTERVAL").getD 10000
    maxIterations := (e.word? "TIROS_PROBE_MAX_ITERATIONS").getD 0
    nodeEndpoint := "http://" ++ nodeHost ++ ":" ++ toString nodeSocket
    nodeWait := (e.word? "TIROS_PROBE_KUBO_WAIT_TIMEOUT").getD 60000
    collectorHost := ((e.get? "TIROS_PROBE_TRACE_RECEIVER_HOST").bind fun value =>
      Address.read? (trim value.toList)).getD .localhost
    collectorSocket := socketOf e "TIROS_PROBE_TRACE_RECEIVER_PORT" 4317
    recordDirectory := e.text? "TIROS_PROBE_JSON_OUT"
    dryRun := (e.flag? "TIROS_PROBE_DRY_RUN").getD false
    mode
    region := (e.text? "TIROS_PROBE_REGION").getD ""
    contentIds := ((e.text? "TIROS_PROBE_DOWNLOAD_CIDS").map splitList).getD []
    downloadsPerIteration := (e.word? "TIROS_PROBE_DOWNLOADS_PER_ITERATION").getD 1 }

end ProbeSettings

end ContentProbe
