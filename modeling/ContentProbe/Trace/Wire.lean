/-!
Trace batches as a node reports them, in the messages of OTLP: resources hold scopes, scopes hold spans, and
nothing in a span is checked. Ids are bytes of any length, attributes may repeat a key, lack a value or hold
lists and tables, kinds and codes may be numbers that mean nothing. A field that is not set has its default.
-/

namespace ContentProbe.Wire

/-- An attribute value. A double is kept as its bits; a table may hold a key without a value. -/
inductive Value where
  | string (text : String)
  | int (n : Int64)
  | double (bits : UInt64)
  | bool (value : Bool)
  | bytes (data : List UInt8)
  | array (items : List Value)
  | table (entries : List (String × Option Value))
  | empty
  deriving Repr, Inhabited

structure Attribute where
  key : String
  value : Option Value
  deriving Repr, Inhabited

structure Event where
  name : String
  time : UInt64
  attributes : List Attribute
  droppedAttributes : UInt32 := 0
  deriving Repr, Inhabited

/-- A span of this or another trace that a span refers to. -/
structure Link where
  traceId : List UInt8
  spanId : List UInt8
  traceState : String := ""
  attributes : List Attribute := []
  droppedAttributes : UInt32 := 0
  flags : UInt32 := 0
  deriving Repr, Inhabited

structure Status where
  message : String
  code : Int32
  deriving Repr, Inhabited

structure Span where
  traceId : List UInt8
  spanId : List UInt8
  parentId : List UInt8
  name : String
  start : UInt64
  finish : UInt64
  attributes : List Attribute
  events : List Event
  traceState : String := ""
  flags : UInt32 := 0
  kind : Int32 := 0
  droppedAttributes : UInt32 := 0
  droppedEvents : UInt32 := 0
  links : List Link := []
  droppedLinks : UInt32 := 0
  status : Option Status := none
  deriving Repr, Inhabited

/-- The instrumentation that spans come from. -/
structure Scope where
  name : String
  version : String
  attributes : List Attribute
  droppedAttributes : UInt32
  deriving Repr, Inhabited

structure ScopeSpans where
  scope : Option Scope := none
  spans : List Span
  schemaUrl : String := ""
  deriving Repr, Inhabited

/-- Something that a resource stands for, told by the keys of the attributes that name and describe it. -/
structure EntityRef where
  schemaUrl : String
  type : String
  idKeys : List String
  descriptionKeys : List String
  deriving Repr, Inhabited

/-- The program that spans come from. -/
structure Resource where
  attributes : List Attribute
  droppedAttributes : UInt32
  entities : List EntityRef
  deriving Repr, Inhabited

structure ResourceSpans where
  resource : Option Resource := none
  scopes : List ScopeSpans
  schemaUrl : String := ""
  deriving Repr, Inhabited

structure Batch where
  resources : List ResourceSpans
  deriving Repr, Inhabited

/-- The spans of a resource in the order in which they are nested. -/
def ResourceSpans.spans (r : ResourceSpans) : List Span := r.scopes.flatMap (·.spans)

/-- The spans in the order in which they are nested. -/
def Batch.spans (b : Batch) : List Span := b.resources.flatMap (·.spans)

/-- Spans by resource and scope, of which nothing else is told. -/
def Batch.nested (spans : List (List (List Span))) : Batch where
  resources := spans.map fun scopes => { scopes := scopes.map fun spans => { spans } }

end ContentProbe.Wire
