import ContentProbe.Json.Mended
import ContentProbe.Text.Blank
import ContentProbe.Text.Lines
import ContentProbe.Time.Elapsed

/-!
Replies of a node and what they say. A reply that reports no success is a failed command, whose cause its
body tells as an object or as plain text. Objects may also be written as lists of their members in order;
a member may not come twice, and unknown ones are passed over.
-/

namespace ContentProbe.Node

open ContentProbe.Text ContentProbe.Time

/-- A reply. Its body may break off before its end. -/
structure Reply where
  status : Nat
  body : List UInt8
  isWhole : Bool
  deriving DecidableEq, Repr

inductive Fault where
  /-- No reply came to the request for an address. -/
  | unsent (url : String)
  /-- The body of a reply broke off or was not what was asked for. -/
  | body
  | command (status : Nat) (message : String) (code : Int) (kind : String)
  | entry
  | noContentId
  | unavailable (limit : Nat)
  deriving DecidableEq, Repr

def Fault.message : Fault → String
  | .unsent url => "kubo request failed: error sending request for url (" ++ url ++ ")"
  | .body => "kubo request failed: error decoding response body"
  | .command status message .. => "kubo rpc error (" ++ toString status ++ "): " ++ message
  | .entry => "unexpected kubo response"
  | .noContentId => "kubo add returned no content id"
  | .unavailable limit => "kubo not available after " ++ elapsedText limit

namespace Members

/-- The value of a member, if there is one, or nothing at all if it comes twice. -/
def only? (fields : List (Option String × Json)) (name : String) : Option (Option Json) :=
  match fields.filter (·.1 == some name) with
  | [] => some none
  | [(_, v)] => some (some v)
  | _ => none

/-- The members of a value by their names. -/
def ofJson? (names : List String) : Json → Option (List (Option Json))
  | .object fields => if fields.all (·.1.isSome) then names.mapM (only? fields) else none
  | .array items =>
      if names.length < items.length then none
      else some ((List.range names.length).map fun i => items[i]?)
  | _ => none

def text? : Json → Option String
  | .string s => s
  | _ => none

def int? : Json → Option Int
  | .number n => n.toInt64?.map Int64.toInt
  | _ => none

def texts? : Json → Option (Option (List String))
  | .null => some none
  | .array items => (items.mapM text?).map some
  | _ => none

def required {α : Type} (read : Json → Option α) (member : Option Json) : Option α :=
  member.bind read

/-- A member with a value of its own if it is missing. -/
def orElse {α : Type} (default : α) (read : Json → Option α) (member : Option Json) : Option α :=
  match member with
  | none => some default
  | some j => read j

end Members

open Members

def jsonOf? (body : List UInt8) : Option Json := Json.readBytes? body

structure VersionInfo where
  version : String
  commit : String
  repository : String
  system : String
  toolchain : String
  deriving DecidableEq, Repr

def VersionInfo.ofJson? (j : Json) : Option VersionInfo := do
  match ← Members.ofJson? ["Version", "Commit", "Repo", "System", "Golang"] j with
  | [version, commit, repository, system, toolchain] =>
      return ⟨← required text? version, ← orElse "" text? commit, ← orElse "" text? repository,
        ← orElse "" text? system, ← orElse "" text? toolchain⟩
  | _ => none

structure PeerInfo where
  id : String
  publicKey : String
  addresses : Option (List String)
  agent : String
  protocols : Option (List String)
  deriving DecidableEq, Repr

def PeerInfo.ofJson? (j : Json) : Option PeerInfo := do
  match ← Members.ofJson? ["ID", "PublicKey", "Addresses", "AgentVersion", "Protocols"] j with
  | [id, publicKey, addresses, agent, protocols] =>
      return ⟨← required text? id, ← orElse "" text? publicKey, ← orElse none texts? addresses,
        ← orElse "" text? agent, ← orElse none texts? protocols⟩
  | _ => none

/-- The content id of an entry that an addition returns. -/
def entryHash? (j : Json) : Option String := do
  match ← Members.ofJson? ["Hash"] j with
  | [hash] => required text? hash
  | _ => none

def pinKind? (j : Json) : Option String := do
  match ← Members.ofJson? ["Type"] j with
  | [kind] => required text? kind
  | _ => none

/-- Sets the kind of a pin, the later one of a content id being valid. -/
def setPin (pins : List (String × String)) (pin : String × String) : List (String × String) :=
  if pins.any (·.1 == pin.1) then pins.map fun p => if p.1 = pin.1 then pin else p
  else pins ++ [pin]

def pin? (field : Option String × Json) : Option (String × String) := do
  return (← field.1, ← pinKind? field.2)

/-- Pins by content id. -/
def pinTable? : Json → Option (List (String × String))
  | .object fields => (fields.mapM pin?).map (·.foldl setPin [])
  | _ => none

/-- The pins that a listing tells of. -/
def pins? (j : Json) : Option (List (String × String)) := do
  match ← Members.ofJson? ["Keys"] j with
  | [keys] => orElse [] pinTable? keys
  | _ => none

/-- The message, code and kind of a failed command. -/
def cause? (j : Json) : Option (String × Int × String) := do
  match ← Members.ofJson? ["Message", "Code", "Type"] j with
  | [message, code, kind] =>
      return (← required text? message, ← orElse 0 int? code, ← orElse "" text? kind)
  | _ => none

namespace Reply

def isSuccess (r : Reply) : Bool := 200 ≤ r.status && r.status < 300

/-- The body, if it is whole. -/
def data (r : Reply) : Except Fault (List UInt8) := if r.isWhole then .ok r.body else .error .body

def json {α : Type} (read : Json → Option α) (r : Reply) : Except Fault α := do
  match (jsonOf? (← r.data)).bind read with
  | some a => return a
  | none => throw .body

def cause (status : Nat) (body : List UInt8) : Fault :=
  match (jsonOf? body).bind cause? with
  | some (message, code, kind) => .command status message code kind
  | none => .command status (trimmed (utf8Lossy body)) 0 ""

/-- The reply to a command that succeeded. -/
def checked (r : Reply) : Except Fault Reply :=
  if r.isSuccess then .ok r
  else do throw (cause r.status (← r.data))

end Reply

/-- The content id in the last line of a body that is not blank. -/
def addedContentId (body : List UInt8) : Except Fault String :=
  match (splitLines (utf8Lossy body).toList).reverse.find? fun line => !line.all isBlank with
  | none => .error .noContentId
  | some line =>
      match (Json.read? line).bind entryHash? with
      | some hash => .ok hash
      | none => .error .entry

end ContentProbe.Node
