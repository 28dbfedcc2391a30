import ContentProbe.Json.Double
import ContentProbe.Json.Writer
import ContentProbe.Text.Bytes
import ContentProbe.Trace.Wire

/-!
Batches as JSON documents, in the OTLP mapping: ids and times of 64 bits are texts, ids hexadecimal and
byte strings base 64, counts and flags of 32 bits are numbers. Every field of a message is written, a message
that is not there as `null`.
-/

namespace ContentProbe.Wire

open ContentProbe.Text

def textOf (cs : List Char) : Json := .text (String.ofList cs)

mutual

/-- The one field of a value, named for its kind. A value that holds nothing has no field. -/
def Value.toJson : Value → Json
  | .string text => .record [("stringValue", .text text)]
  | .int n => .record [("intValue", textOf (intText n.toInt))]
  | .double bits => .record [("doubleValue", .ofDouble (Float.ofBits bits))]
  | .bool value => .record [("boolValue", .bool value)]
  | .bytes data => .record [("bytesValue", textOf (base64 data))]
  | .array items => .record [("arrayValue", .record [("values", .array (itemsJson items))])]
  | .table entries => .record [("kvlistValue", .record [("values", .array (entriesJson entries))])]
  | .empty => .record []

def itemsJson : List Value → List Json
  | [] => []
  | item :: items => item.toJson :: itemsJson items

def entriesJson : List (String × Option Value) → List Json
  | [] => []
  | (key, none) :: entries => .record [("key", .text key), ("value", .null)] :: entriesJson entries
  | (key, some value) :: entries =>
      .record [("key", .text key), ("value", value.toJson)] :: entriesJson entries

end

def Attribute.toJson (a : Attribute) : Json :=
  .record [("key", .text a.key), ("value", .optional Value.toJson a.value)]

def attributesJson (attributes : List Attribute) : Json :=
  .array (attributes.map Attribute.toJson)

def timeJson (t : UInt64) : Json := textOf (natText t.toNat)

def countJson (n : UInt32) : Json := .ofNat n.toNat

/-- A number that stands for the name of a kind. -/
def codeJson (n : Int32) : Json := .ofInt n.toInt

def Event.toJson (e : Event) : Json :=
  .record [("timeUnixNano", timeJson e.time), ("name", .text e.name),
    ("attributes", attributesJson e.attributes), ("droppedAttributesCount", countJson e.droppedAttributes)]

def Link.toJson (l : Link) : Json :=
  .record [("traceId", textOf (byteHex l.traceId)), ("spanId", textOf (byteHex l.spanId)),
    ("traceState", .text l.traceState), ("attributes", attributesJson l.attributes),
    ("droppedAttributesCount", countJson l.droppedAttributes), ("flags", countJson l.flags)]

def Status.toJson (s : Status) : Json :=
  .record [("message", .text s.message), ("code", codeJson s.code)]

def Span.toJson (s : Span) : Json :=
  .record [("traceId", textOf (byteHex s.traceId)), ("spanId", textOf (byteHex s.spanId)),
    ("traceState", .text s.traceState), ("parentSpanId", textOf (byteHex s.parentId)),
    ("flags", countJson s.flags), ("name", .text s.name), ("kind", codeJson s.kind),
    ("startTimeUnixNano", timeJson s.start), ("endTimeUnixNano", timeJson s.finish),
    ("attributes", attributesJson s.attributes), ("droppedAttributesCount", countJson s.droppedAttributes),
    ("events", .array (s.events.map Event.toJson)), ("droppedEventsCount", countJson s.droppedEvents),
    ("links", .array (s.links.map Link.toJson)), ("droppedLinksCount", countJson s.droppedLinks),
    ("status", .optional Status.toJson s.status)]

def Scope.toJson (s : Scope) : Json :=
  .record [("name", .text s.name), ("version", .text s.version), ("attributes", attributesJson s.attributes),
    ("droppedAttributesCount", countJson s.droppedAttributes)]

def ScopeSpans.toJson (s : ScopeSpans) : Json :=
  .record [("scope", .optional Scope.toJson s.scope), ("spans", .array (s.spans.map Span.toJson)),
    ("schemaUrl", .text s.schemaUrl)]

def EntityRef.toJson (e : EntityRef) : Json :=
  .record [("schemaUrl", .text e.schemaUrl), ("type", .text e.type),
    ("idKeys", .array (e.idKeys.map .text)), ("descriptionKeys", .array (e.descriptionKeys.map .text))]

def Resource.toJson (r : Resource) : Json :=
  .record [("attributes", attributesJson r.attributes),
    ("droppedAttributesCount", countJson r.droppedAttributes),
    ("entityRefs", .array (r.entities.map EntityRef.toJson))]

def ResourceSpans.toJson (r : ResourceSpans) : Json :=
  .record [("resource", .optional Resource.toJson r.resource),
    ("scopeSpans", .array (r.scopes.map ScopeSpans.toJson)), ("schemaUrl", .text r.schemaUrl)]

def Batch.toJson (b : Batch) : Json :=
  .record [("resourceSpans", .array (b.resources.map ResourceSpans.toJson))]

def Batch.dump (b : Batch) : String := b.toJson.prettyText

/-- The file that a batch is dumped to, by its number in the order of receipt. -/
def dumpName (number : Nat) : String := "trace-" ++ toString number ++ ".json"

end ContentProbe.Wire
