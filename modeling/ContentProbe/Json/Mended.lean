import ContentProbe.Json.Reader
import ContentProbe.Text.Bytes

/-!
JSON documents in bytes that may be malformed UTF-8. A string literal with a malformed stretch denotes no text, like
one with half of a surrogate pair, and may stand where its text does not matter; anywhere else a malformed stretch
makes the bytes no document.
-/

namespace ContentProbe.Json

open ContentProbe.Text

/-- Where a character stands: between literals, in one, or behind a backslash in one. -/
inductive Place where
  | between
  | literal
  | escape
  deriving DecidableEq, Repr

def Place.after : Place → Char → Place
  | .between, c => if c = '"' then .literal else .between
  | .literal, c => if c = '"' then .between else if c = '\\' then .escape else .literal
  | .escape, _ => .literal

/-- Two low halves of surrogate pairs. Whatever stands before them, the second one has no high half. -/
def gap : List Char := "\\udc00\\udc00".toList

/-- The characters from a place on, with a gap for each malformed stretch of a literal. -/
def mended? : Place → List (Option Char) → Option (List Char)
  | _, [] => some []
  | place, some c :: rest => (mended? (place.after c) rest).map (c :: ·)
  | .literal, none :: rest => (mended? .literal rest).map (gap ++ ·)
  | _, none :: _ => none

/-- The document that bytes hold. -/
def readBytes? (bytes : List UInt8) : Option Json := (mended? .between (utf8Symbols 0 bytes)).bind read?

end ContentProbe.Json
