import ContentProbe.Text.Bytes
import ContentProbe.Trace.Ids

/-!
Requests to a node. Each is a command under the base of the node's interface, with a query, and with the
context of a probe if it is made for one. A context has a text only if neither of its ids is zero.
-/

namespace ContentProbe

open ContentProbe.Text

/-- The trace of an action, and the span that the node's spans have as their parent. -/
structure ProbeContext where
  trace : TraceId
  span : SpanId
  deriving DecidableEq, Repr

/-- The context as requests carry it. -/
def ProbeContext.text? (c : ProbeContext) : Option String :=
  if c.trace.isZero || c.span.isZero then none
  else some ("00-" ++ c.trace.hex ++ "-" ++ c.span.hex ++ "-01")

namespace Node

structure FilePart where
  part : String
  name : String
  content : List UInt8
  deriving DecidableEq, Repr

structure Request where
  command : String
  query : List (String × String)
  context : Option String
  file : Option FilePart
  deriving DecidableEq, Repr

/-- A byte of a query: letters, digits and four signs stand for themselves. -/
def queryByte (b : UInt8) : List Char :=
  let c := Char.ofNat b.toNat
  if c = ' ' then ['+']
  else if c.isAlphanum || c = '*' || c = '-' || c = '.' || c = '_' then [c]
  else '%' :: (hexText 2 b.toNat).map Char.toUpper

def queryText (s : String) : List Char := (utf8Bytes s).flatMap queryByte

def pairText (pair : String × String) : List Char :=
  queryText pair.1 ++ '=' :: queryText pair.2

namespace Request

/-- The command with its query. -/
def target (r : Request) : String :=
  if r.query.isEmpty then r.command
  else String.ofList (r.command.toList ++ '?' :: ['&'].intercalate (r.query.map pairText))

/-- Adds and pins content under a name for the pin. -/
def add (context : ProbeContext) (pinName : String) (content : List UInt8) : Request :=
  ⟨"add", [("pin", "true"), ("pin-name", pinName), ("fscache", "false"), ("quieter", "true")],
    context.text?, some ⟨"file", "tiros-probe", content⟩⟩

def cat (context : ProbeContext) (contentId : String) : Request :=
  ⟨"cat", [("arg", contentId)], context.text?, none⟩

def version : Request := ⟨"version", [], none, none⟩

def identity : Request := ⟨"id", [], none, none⟩

def listPins : Request := ⟨"pin/ls", [("type", "all")], none, none⟩

def removePin (contentId : String) (recursive : Bool) : Request :=
  ⟨"pin/rm", [("arg", contentId), ("recursive", if recursive then "true" else "false")], none, none⟩

def collectGarbage : Request := ⟨"repo/gc", [], none, none⟩

end Request

/-- The base of the interface of a node at an endpoint. -/
def baseOf (endpoint : String) : String :=
  String.ofList (endpoint.toList.reverse.dropWhile (· = '/')).reverse ++ "/api/v0/"

end Node

end ContentProbe
