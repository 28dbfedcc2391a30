import ContentProbe.Download
import ContentProbe.Time.Elapsed
import ContentProbe.Time.Stamp

/-!
Flat records of finished probes. Times are points in UTC, lengths of time are seconds as doubles, and what a
probe could not observe is missing.
-/

namespace ContentProbe

open ContentProbe.Time

/-- What stays the same over the probes of a run. -/
structure RunInfo where
  runId : String
  region : String
  probeVersion : String
  nodeVersion : String
  nodePeerId : String
  deriving DecidableEq, Repr

def RunInfo.empty : RunInfo := ⟨"", "", "", "", ""⟩

structure UploadRecord where
  run : RunInfo
  fileSize : Nat
  cid : Option String
  rawCid : Option String
  addTrace : String
  addStart : Option Stamp
  addSeconds : Option Float
  provideTrace : Option String
  provideStart : Option Stamp
  provideSeconds : Option Float
  provideDelay : Option Float
  uploadSeconds : Option Float
  error : Option String
  deriving Repr

structure DownloadRecord where
  run : RunInfo
  cid : String
  cidSource : String
  catTrace : String
  fileSize : Option Nat
  catStart : Stamp
  firstByteSeconds : Option Float
  catSeconds : Option Float
  idleBroadcast : Option Stamp
  found : Nat
  connected : Nat
  firstFoundAt : Option Stamp
  firstConnectedAt : Option Stamp
  firstPeer : Option String
  indexStart : Option Stamp
  indexSeconds : Option Float
  indexStatus : Option Int64
  firstBlock : Option Stamp
  discovery : Option Discovery
  done : Bool
  error : Option String
  deriving Repr

def Interval.seconds (i : Interval) : Float := secondsBetween i.start i.finish

/-- The record of an upload. The delay runs from the end of the add to the start of the announcement and
can be below zero; the whole upload runs from the start of one to the end of the other. -/
def UploadRecord.of (run : RunInfo) (u : Upload) : UploadRecord where
  run
  fileSize := u.fileSize
  cid := u.published.map (·.contentId)
  rawCid := u.published.map (·.rawKey)
  addTrace := u.addTrace.hex
  addStart := u.add.map fun i => Stamp.ofNanos i.start
  addSeconds := u.add.map Interval.seconds
  provideTrace := u.provide.map (·.trace.hex)
  provideStart := u.provide.map fun p => Stamp.ofNanos p.interval.start
  provideSeconds := u.provide.map (·.interval.seconds)
  provideDelay := do return secondsBetween (← u.add).finish (← u.provide).interval.start
  uploadSeconds := do return secondsBetween (← u.add).start (← u.provide).interval.finish
  error := u.error

def DownloadRecord.of (run : RunInfo) (cidSource : String) (d : Download) : DownloadRecord where
  run
  cid := d.contentId
  cidSource
  catTrace := d.catTrace.hex
  fileSize := d.transfer.map (·.size)
  catStart := Stamp.ofNanos d.start
  firstByteSeconds := (d.transfer.bind (·.firstByte)).map inSeconds
  catSeconds := d.transfer.map fun t => inSeconds t.duration
  idleBroadcast := d.idleBroadcast.map Stamp.ofNanos
  found := d.providers.found
  connected := d.providers.connected
  firstFoundAt := d.providers.first.map fun p => Stamp.ofNanos p.foundAt
  firstConnectedAt := d.providers.first.map fun p => Stamp.ofNanos p.connectedAt
  firstPeer := d.providers.first.map (·.peer)
  indexStart := d.indexQuery.map fun q => Stamp.ofNanos q.start
  indexSeconds := d.indexQuery.map fun q => secondsBetween q.start q.finish
  indexStatus := d.indexQuery.bind (·.status)
  firstBlock := d.firstBlock.map Stamp.ofNanos
  discovery := d.discovery
  done := d.done
  error := d.error

end ContentProbe
