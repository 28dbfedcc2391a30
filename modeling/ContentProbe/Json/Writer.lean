import ContentProbe.Json.Value

/-!
Writing JSON text, on one line or over indented lines. Strings escape quotes, backslashes and control
characters and nothing else, and an exponent is written with its sign. A literal without text is written
as the empty text.
-/

namespace ContentProbe.Json

open ContentProbe.Text

def escapeChar (c : Char) : List Char :=
  match c with
  | '"' => ['\\', '"']
  | '\\' => ['\\', '\\']
  | '\x08' => ['\\', 'b']
  | '\x0c' => ['\\', 'f']
  | '\n' => ['\\', 'n']
  | '\r' => ['\\', 'r']
  | '\t' => ['\\', 't']
  | _ => if c.toNat < 0x20 then '\\' :: 'u' :: hexText 4 c.toNat else [c]

def quote (cs : List Char) : List Char := '"' :: cs.flatMap escapeChar ++ ['"']

def writeLiteral (s : Option String) : List Char := quote (s.getD "").toList

/-- An exponent always has a sign. -/
def writeExponent (e : Int) : List Char :=
  if 0 ≤ e then 'e' :: '+' :: intText e else 'e' :: intText e

def writeNumeral (n : Numeral) : List Char :=
  let sign := if n.negative then ['-'] else []
  let fraction := if n.fraction.isEmpty then [] else '.' :: n.fraction.map hexChar
  let exponent := match n.exponent with
    | none => []
    | some e => writeExponent e
  sign ++ natText n.whole ++ fraction ++ exponent

mutual

/-- The text on one line, without spaces. -/
def compact : Json → List Char
  | .null => ['n', 'u', 'l', 'l']
  | .bool true => ['t', 'r', 'u', 'e']
  | .bool false => ['f', 'a', 'l', 's', 'e']
  | .number n => writeNumeral n
  | .string s => writeLiteral s
  | .array items => '[' :: compactItems items
  | .object fields => '{' :: compactFields fields

def compactItems : List Json → List Char
  | [] => [']']
  | [item] => compact item ++ [']']
  | item :: next :: items => compact item ++ ',' :: compactItems (next :: items)

def compactFields : List (Option String × Json) → List Char
  | [] => ['}']
  | [(key, value)] => writeLiteral key ++ ':' :: compact value ++ ['}']
  | (key, value) :: next :: fields =>
      writeLiteral key ++ ':' :: compact value ++ ',' :: compactFields (next :: fields)

end

/-- A line break and the indentation of a depth. -/
def newline (depth : Nat) : List Char := '\n' :: List.replicate (2 * depth) ' '

mutual

/-- The text over lines that are indented by two spaces a level; `depth` is that of the line on which
the value starts. -/
def pretty (depth : Nat) : Json → List Char
  | .array [] => ['[', ']']
  | .array (item :: items) => '[' :: prettyItems depth (item :: items)
  | .object [] => ['{', '}']
  | .object (field :: fields) => '{' :: prettyFields depth (field :: fields)
  | .null => ['n', 'u', 'l', 'l']
  | .bool true => ['t', 'r', 'u', 'e']
  | .bool false => ['f', 'a', 'l', 's', 'e']
  | .number n => writeNumeral n
  | .string s => writeLiteral s

/-- Items behind an opening bracket, each on a line of its own. -/
def prettyItems (depth : Nat) : List Json → List Char
  | [] => [']']
  | [item] => newline (depth + 1) ++ pretty (depth + 1) item ++ newline depth ++ [']']
  | item :: next :: items =>
      newline (depth + 1) ++ pretty (depth + 1) item ++ ',' :: prettyItems depth (next :: items)

/-- Fields behind an opening brace, each on a line of its own. -/
def prettyFields (depth : Nat) : List (Option String × Json) → List Char
  | [] => ['}']
  | [(key, value)] =>
      newline (depth + 1) ++ writeLiteral key ++ ':' :: ' ' :: pretty (depth + 1) value ++
        newline depth ++ ['}']
  | (key, value) :: next :: fields =>
      newline (depth + 1) ++ writeLiteral key ++ ':' :: ' ' :: pretty (depth + 1) value ++
        ',' :: prettyFields depth (next :: fields)

end

def compactText (j : Json) : String := String.ofList (compact j)

def prettyText (j : Json) : String := String.ofList (pretty 0 j)

end ContentProbe.Json
