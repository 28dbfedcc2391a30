import ContentProbe.Text.Bytes

/-!
The text of an endpoint: `scheme://authority` with a path and a query after it, an authority alone, or a
path alone. A reader tells where the authority ends and refuses characters that may not stand there.
-/

namespace ContentProbe.Endpoint

/-- Characters that stand for themselves in an authority. -/
def isPlain (c : Char) : Bool := c.isAlphanum || "-._~!$&'()*+,;=".toList.contains c

def isSchemeChar (c : Char) : Bool := c.isAlphanum || "+-.".toList.contains c

/-- Characters of a path, which may also hold any text beyond ASCII. -/
def isPathChar (c : Char) : Bool :=
  c.isAlphanum || "!\"$%&'()*+,-./:;=@[\\]^_\x7b|\x7d~".toList.contains c || 0x80 ≤ c.toNat

def isQueryChar (c : Char) : Bool :=
  c != '"' && (isPathChar c || c == '?' || c == (Char.ofNat 0x60))

/-- What was read of an authority: the colons since its user part or bracket, its brackets, a percent sign
in doubt, and whether a user part has just ended. -/
structure Reading where
  colons : Nat
  opened : Bool
  closed : Bool
  percent : Bool
  afterUser : Bool

def Reading.isDone (r : Reading) : Bool :=
  r.opened == r.closed && r.colons ≤ 1 && !r.afterUser && !r.percent

/-- Reads an authority up to a path, a query, a fragment or the end of the text. -/
def authorityFrom? (r : Reading) : List Char → Option (List Char)
  | [] => if r.isDone then some [] else none
  | c :: rest =>
      if c == '/' || c == '?' || c == '#' then if r.isDone then some (c :: rest) else none
      else if c == ':' then
        if 8 ≤ r.colons then none
        else authorityFrom? { r with colons := r.colons + 1, afterUser := false } rest
      else if c == '[' then
        if r.percent || r.opened then none
        else authorityFrom? { r with opened := true, afterUser := false } rest
      else if c == ']' then
        if !r.opened || r.closed then none
        else authorityFrom?
          { r with closed := true, colons := 0, percent := false, afterUser := false } rest
      else if c == '@' then
        authorityFrom? { r with colons := 0, percent := false, afterUser := true } rest
      else if c == '%' then authorityFrom? { r with percent := true, afterUser := false } rest
      else if isPlain c then authorityFrom? { r with afterUser := false } rest
      else none

/-- What follows the authority that a text begins with. -/
def afterAuthority? (cs : List Char) : Option (List Char) :=
  authorityFrom? ⟨0, false, false, false, false⟩ cs

/-- A path with a query, up to a fragment. -/
def isPath (cs : List Char) : Bool :=
  let cs := cs.takeWhile (· != '#')
  (cs.takeWhile (· != '?')).all isPathChar && ((cs.dropWhile (· != '?')).drop 1).all isQueryChar

/-- What follows the scheme that a text begins with. -/
def afterScheme? (cs : List Char) : Option (List Char) :=
  let scheme := cs.takeWhile isSchemeChar
  match cs.drop scheme.length with
  | ':' :: '/' :: '/' :: rest => if scheme.isEmpty then none else some rest
  | _ => none

/-- The text names an endpoint. -/
def isValid (text : String) : Bool :=
  let cs := text.toList
  if cs.isEmpty || 65534 < text.utf8ByteSize then false
  else if cs = ['*'] then true
  else if cs.head? = some '/' then isPath cs
  else match afterScheme? cs with
    | none => afterAuthority? cs = some []
    | some rest =>
        match afterAuthority? rest with
        | some path => path.length < rest.length && isPath path
        | none => false

end ContentProbe.Endpoint
