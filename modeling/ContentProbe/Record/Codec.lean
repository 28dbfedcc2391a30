import ContentProbe.Json.Double
import ContentProbe.Json.Reader
import ContentProbe.Json.Writer
import ContentProbe.Record.Basic

/-!
Records as JSON objects: the fields of the run first, then those of the probe, in a fixed order and
all of them present. Reading takes the fields in any order and skips others, as long as these could be
held: no text with half a surrogate pair, no number beyond the doubles and no nesting beyond a limit.
A field may occur once; a missing one is `null` where it is optional.
-/

namespace ContentProbe

open ContentProbe.Time

namespace Discovery

def name : Discovery → String
  | .routing => "dht"
  | .index => "ipni"
  | .broadcast => "bitswap"

def ofName? (s : String) : Option Discovery :=
  [Discovery.routing, .index, .broadcast].find? (·.name == s)

/-- A method is written as its name, and also read from an object that has the name for its only key
and holds nothing under it. -/
def ofJson? : Json → Option Discovery
  | .string (some s) => ofName? s
  | .object [(some s, .null)] => ofName? s
  | _ => none

end Discovery

namespace Fields

/-- How deep the value of a field that is skipped may nest. -/
def maxDepth : Nat := 126

/-- The value could be held, within a depth. -/
def canHold : Nat → Json → Bool
  | _, .null => true
  | _, .bool _ => true
  | _, .number n => n.toDouble?.isSome
  | _, .string s => s.isSome
  | 0, .array _ => false
  | 0, .object _ => false
  | depth + 1, .array items => items.all (canHold depth)
  | depth + 1, .object fields => fields.all fun (k, v) => k.isSome && canHold depth v

/-- The one value of a key: none if there is none, a failure if there are several. -/
def value? (fields : List (Option String × Json)) (key : String) : Option (Option Json) :=
  match fields.filter (·.1 == some key) with
  | [] => some none
  | [(_, v)] => some (some v)
  | _ => none

def required {α : Type} (read : Json → Option α) (fields : List (Option String × Json))
    (key : String) : Option α := do
  read (← ← value? fields key)

/-- A field that may be missing or `null`. -/
def optional {α : Type} (read : Json → Option α) (fields : List (Option String × Json))
    (key : String) : Option (Option α) := do
  match ← value? fields key with
  | none | some .null => return none
  | some v => return some (← read v)

def text? : Json → Option String
  | .string s => s
  | _ => none

def bool? : Json → Option Bool
  | .bool b => some b
  | _ => none

def nat? : Json → Option Nat
  | .number n => n.toNat? (Nat.pow 2 64)
  | _ => none

def int64? : Json → Option Int64
  | .number n => n.toInt64?
  | _ => none

def double? : Json → Option Float
  | .number n => n.toDouble?
  | _ => none

def stamp? (j : Json) : Option Stamp := (text? j).bind fun s => Stamp.read? s.toList

/-- The fields of an object all of whose keys have texts and whose fields of other names can be
held. -/
def ofObject? (known : List String) : Json → Option (List (Option String × Json))
  | .object fields =>
      let readable := fields.all fun (k, v) =>
        match k with
        | none => false
        | some k => known.contains k || canHold maxDepth v
      if readable then some fields else none
  | _ => none

end Fields

def stampJson (t : Stamp) : Json := .text (String.ofList t.render)

namespace RunInfo

def fields (r : RunInfo) : List (String × Json) :=
  [("run_id", .text r.runId), ("region", .text r.region), ("tiros_version", .text r.probeVersion),
    ("node_version", .text r.nodeVersion), ("node_peer_id", .text r.nodePeerId)]

def ofFields? (fields : List (Option String × Json)) : Option RunInfo := do
  let text := Fields.required Fields.text? fields
  return ⟨← text "run_id", ← text "region", ← text "tiros_version", ← text "node_version",
    ← text "node_peer_id"⟩

end RunInfo

namespace UploadRecord

/-- The fields of the probe. -/
def ownFields (r : UploadRecord) : List (String × Json) :=
  [("file_size_b", .ofNat r.fileSize),
    ("cid", .optional .text r.cid),
    ("raw_cid", .optional .text r.rawCid),
    ("add_trace_id", .text r.addTrace),
    ("add_start", .optional stampJson r.addStart),
    ("add_duration_s", .optional .ofDouble r.addSeconds),
    ("provide_trace_id", .optional .text r.provideTrace),
    ("provide_start", .optional stampJson r.provideStart),
    ("provide_duration_s", .optional .ofDouble r.provideSeconds),
    ("provide_delay_s", .optional .ofDouble r.provideDelay),
    ("upload_duration_s", .optional .ofDouble r.uploadSeconds),
    ("error", .optional .text r.error)]

def toJson (r : UploadRecord) : Json := .record (r.run.fields ++ r.ownFields)

/-- The fields that are read where they stand. -/
def known : List String :=
  ["file_size_b", "cid", "raw_cid", "add_trace_id", "add_start", "add_duration_s",
    "provide_trace_id", "provide_start", "provide_duration_s", "provide_delay_s",
    "upload_duration_s", "error"]

def ofFields? (fields : List (Option String × Json)) : Option UploadRecord := do
  let text := Fields.optional Fields.text? fields
  let time := Fields.optional Fields.stamp? fields
  let seconds := Fields.optional Fields.double? fields
  return ⟨← RunInfo.ofFields? fields, ← Fields.required Fields.nat? fields "file_size_b",
    ← text "cid", ← text "raw_cid", ← Fields.required Fields.text? fields "add_trace_id",
    ← time "add_start", ← seconds "add_duration_s", ← text "provide_trace_id",
    ← time "provide_start", ← seconds "provide_duration_s", ← seconds "provide_delay_s",
    ← seconds "upload_duration_s", ← text "error"⟩

def ofJson? (j : Json) : Option UploadRecord := (Fields.ofObject? known j).bind ofFields?

def encode (r : UploadRecord) : String := r.toJson.compactText

def decode? (text : String) : Option UploadRecord := (Json.read? text.toList).bind ofJson?

end UploadRecord

namespace DownloadRecord

/-- The fields of the probe. -/
def ownFields (r : DownloadRecord) : List (String × Json) :=
  [("cid", .text r.cid),
    ("cid_source", .text r.cidSource),
    ("cat_trace_id", .text r.catTrace),
    ("file_size_b", .optional .ofNat r.fileSize),
    ("cat_start", stampJson r.catStart),
    ("cat_ttfb_s", .optional .ofDouble r.firstByteSeconds),
    ("cat_duration_s", .optional .ofDouble r.catSeconds),
    ("idle_broadcast_start", .optional stampJson r.idleBroadcast),
    ("found_prov_count", .ofNat r.found),
    ("conn_prov_count", .ofNat r.connected),
    ("first_conn_prov_found_at", .optional stampJson r.firstFoundAt),
    ("first_prov_conn_at", .optional stampJson r.firstConnectedAt),
    ("first_prov_peer_id", .optional .text r.firstPeer),
    ("ipni_start", .optional stampJson r.indexStart),
    ("ipni_duration_s", .optional .ofDouble r.indexSeconds),
    ("ipni_status", .optional (fun n => .ofInt n.toInt) r.indexStatus),
    ("first_block_rec_at", .optional stampJson r.firstBlock),
    ("discovery_method", .optional (fun d => .text d.name) r.discovery),
    ("done", .bool r.done),
    ("error", .optional .text r.error)]

def toJson (r : DownloadRecord) : Json := .record (r.run.fields ++ r.ownFields)

/-- The fields that are read where they stand. -/
def known : List String :=
  ["cid", "cid_source", "cat_trace_id", "file_size_b", "cat_start", "cat_ttfb_s",
    "cat_duration_s", "idle_broadcast_start", "found_prov_count", "conn_prov_count",
    "first_conn_prov_found_at", "first_prov_conn_at", "first_prov_peer_id", "ipni_start",
    "ipni_duration_s", "ipni_status", "first_block_rec_at", "discovery_method", "done", "error"]

def ofFields? (fields : List (Option String × Json)) : Option DownloadRecord := do
  let name := Fields.required Fields.text? fields
  let text := Fields.optional Fields.text? fields
  let time := Fields.optional Fields.stamp? fields
  let seconds := Fields.optional Fields.double? fields
  let count := Fields.required Fields.nat? fields
  return ⟨← RunInfo.ofFields? fields, ← name "cid", ← name "cid_source", ← name "cat_trace_id",
    ← Fields.optional Fields.nat? fields "file_size_b",
    ← Fields.required Fields.stamp? fields "cat_start", ← seconds "cat_ttfb_s",
    ← seconds "cat_duration_s", ← time "idle_broadcast_start", ← count "found_prov_count",
    ← count "conn_prov_count", ← time "first_conn_prov_found_at", ← time "first_prov_conn_at",
    ← text "first_prov_peer_id", ← time "ipni_start", ← seconds "ipni_duration_s",
    ← Fields.optional Fields.int64? fields "ipni_status", ← time "first_block_rec_at",
    ← Fields.optional Discovery.ofJson? fields "discovery_method",
    ← Fields.required Fields.bool? fields "done", ← text "error"⟩

def ofJson? (j : Json) : Option DownloadRecord := (Fields.ofObject? known j).bind ofFields?

def encode (r : DownloadRecord) : String := r.toJson.compactText

def decode? (text : String) : Option DownloadRecord := (Json.read? text.toList).bind ofJson?

end DownloadRecord

end ContentProbe
