/-!
Where the name of a file leads from a directory. A name is read part by part between its slashes, from
the root if it begins with a slash: an empty part and a point stay where they are, two points go up, and
the root is above itself. The directories that exist are the one that names are relative to and those
above it. A part has at most 255 bytes and a whole path at most 4095.
-/

namespace ContentProbe

/-- A directory, by the names that lead to it from the root. -/
abbrev Trail := List String

namespace Trail

inductive Fault where
  | nulInName
  | nameTooLong
  | missingDirectory
  deriving DecidableEq, Repr

def Fault.message : Fault → String
  | .nulInName => "file name contained an unexpected NUL byte"
  | .nameTooLong => "File name too long (os error 36)"
  | .missingDirectory => "No such file or directory (os error 2)"

/-- A path that enters one directory after the other. -/
def text (trail : Trail) : String := String.join (trail.map fun name => "/" ++ name)

/-- The path from the root to what a name means in a directory. -/
def pathOf (home : Trail) (name : String) : String :=
  if name.toList.head? = some '/' then name else home.text ++ "/" ++ name

/-- From the directory at a depth of a trail to the one that a part of a path names. -/
def step (home : Trail) (depth : Nat) (part : String) : Except Fault Nat :=
  if part = "" ∨ part = "." then .ok depth
  else if part = ".." then .ok (depth - 1)
  else if 255 < part.utf8ByteSize then .error .nameTooLong
  else if home[depth]? = some part then .ok (depth + 1)
  else .error .missingDirectory

/-- What a file is called seen from a directory: its own name if it lies there, and else its path from
the root. -/
def locate (home : Trail) (name : String) : Except Fault String := do
  if name.toList.contains '\x00' then throw .nulInName
  let path := home.pathOf name
  if 4095 < path.utf8ByteSize then throw .nameTooLong
  let parts := (path.toList.splitOn '/').map String.ofList
  let depth ← parts.dropLast.foldlM home.step 0
  let own := parts.getLastD ""
  if 255 < own.utf8ByteSize then throw .nameTooLong
  return if depth = home.length then own else text (home.take depth) ++ "/" ++ own

end Trail

end ContentProbe
