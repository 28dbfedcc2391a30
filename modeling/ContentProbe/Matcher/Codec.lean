import ContentProbe.Json.Reader
import ContentProbe.Json.Writer
import ContentProbe.Matcher.Basic
import ContentProbe.Text.Quoted

/-!
Matchers as JSON. A list of matchers is read piece by piece, so that the first fault in the order of the
text is the one reported; only a trace id of the wrong length has a fault of its own. The attribute
object may stand as an array of its two members, and members of other names are skipped.
-/

namespace ContentProbe.Matcher

open ContentProbe.Text

inductive Fault where
  | malformed
  | traceIdLength (text : String)
  deriving DecidableEq, Repr

def Fault.message? : Fault → Option String
  | .malformed => none
  | .traceIdLength text => some ("trace id " ++ quoted text ++ " is not 32 hex digits")

def toJson : Matcher → Json
  | .traceId trace => .record [("trace_id", .text trace.hex)]
  | .attribute key value =>
      .record [("attribute", .record [("key", .text key), ("value", .text value)])]
  | .name n => .record [("name", .text n)]

def encode (matchers : List Matcher) : String := Json.compactText (.array (matchers.map toJson))

/-- A number of hexadecimal digits; the first place may hold a plus sign instead. -/
def readHex? (cs : List Char) : Option Nat :=
  let digits := match cs with
    | '+' :: rest => rest
    | _ => cs
  if digits.isEmpty then none else (digits.mapM hexDigit?).map (ofDigits 16)

/-- A trace id takes 32 bytes of text. -/
def readTraceId (text : String) : Except Fault TraceId :=
  if text.utf8ByteSize ≠ 32 then .error (.traceIdLength text)
  else match readHex? text.toList with
    | some n => .ok (.ofNat n)
    | none => .error .malformed

def valuesOf (key : String) (fields : List (Option String × Json)) : List Json :=
  (fields.filter (·.1 == some key)).map (·.2)

/-- The members of an attribute matcher. -/
def readAttribute? : Json → Option Matcher
  | .array [.string (some key), .string (some value)] => some (.attribute key value)
  | .object fields =>
      if fields.all (·.1.isSome) then
        match valuesOf "key" fields, valuesOf "value" fields with
        | [.string (some key)], [.string (some value)] => some (.attribute key value)
        | _, _ => none
      else none
  | _ => none

/-- What follows the expected character, spaces before it apart. -/
def expect (c : Char) (cs : List Char) : Except Fault (List Char) :=
  match Json.skipSpace cs with
  | d :: rest => if d = c then .ok rest else .error .malformed
  | [] => .error .malformed

def orMalformed {α : Type} : Option α → Except Fault α
  | some a => .ok a
  | none => .error .malformed

/-- One matcher: an object of one member. -/
def read (cs : List Char) : Except Fault (Matcher × List Char) := do
  let cs ← expect '{' cs
  let (key, cs) ← orMalformed (Json.readText (Json.skipSpace cs))
  let cs ← expect ':' cs
  let (matcher, cs) ←
    if key = "trace_id" then do
      let (text, cs) ← orMalformed (Json.readText (Json.skipSpace cs))
      pure (Matcher.traceId (← readTraceId text), cs)
    else if key = "name" then do
      let (text, cs) ← orMalformed (Json.readText (Json.skipSpace cs))
      pure (Matcher.name text, cs)
    else if key = "attribute" then do
      let (value, cs) ← orMalformed (Json.readValue cs)
      pure (← orMalformed (readAttribute? value), cs)
    else throw .malformed
  return (matcher, ← expect '}' cs)

/-- One or more matchers and the closing bracket. The fuel bounds their number. -/
def readMany : Nat → List Char → Except Fault (List Matcher × List Char)
  | 0, _ => .error .malformed
  | fuel + 1, cs => do
      let (matcher, cs) ← read cs
      match Json.skipSpace cs with
      | ']' :: rest => return ([matcher], rest)
      | ',' :: rest =>
          let (matchers, rest) ← readMany fuel rest
          return (matcher :: matchers, rest)
      | _ => throw .malformed

def decode (text : String) : Except Fault (List Matcher) := do
  let cs ← expect '[' text.toList
  let (matchers, cs) ← match Json.skipSpace cs with
    | ']' :: rest => pure ([], rest)
    | cs => readMany cs.length cs
  if (Json.skipSpace cs).isEmpty then return matchers else throw .malformed

end ContentProbe.Matcher
