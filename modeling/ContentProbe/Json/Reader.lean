import ContentProbe.Json.Value

/-!
Reading JSON text. Between tokens stand spaces, tabs, line feeds and carriage returns; a string holds no
raw control character; a number has no leading zeros, and digits on both sides of its point. The readers
return what follows, so that a caller can go through a document piece by piece.
-/

namespace ContentProbe.Json

open ContentProbe.Text

def isSpace (c : Char) : Bool := c == ' ' || c == '\n' || c == '\t' || c == '\r'

def skipSpace (cs : List Char) : List Char := cs.dropWhile isSpace

/-- A piece of a string literal: a character, or the 16 bit unit of an escape. -/
inductive Piece where
  | char (c : Char)
  | unit (n : Nat)
  deriving DecidableEq, Repr

/-- The character that a one-letter escape stands for. -/
def escaped? (c : Char) : Option Char :=
  match c with
  | '"' => some '"'
  | '\\' => some '\\'
  | '/' => some '/'
  | 'b' => some '\x08'
  | 'f' => some '\x0c'
  | 'n' => some '\n'
  | 'r' => some '\r'
  | 't' => some '\t'
  | _ => none

/-- The pieces of a literal up to its closing quote, and what follows the quote. -/
def readPieces : List Char → Option (List Piece × List Char)
  | [] => none
  | '"' :: rest => some ([], rest)
  | '\\' :: 'u' :: a :: b :: c :: d :: rest => do
      let ds ← [a, b, c, d].mapM hexDigit?
      let (pieces, rest) ← readPieces rest
      return (.unit (ofDigits 16 ds) :: pieces, rest)
  | '\\' :: c :: rest => do
      let c ← escaped? c
      let (pieces, rest) ← readPieces rest
      return (.char c :: pieces, rest)
  | c :: rest => do
      if c.toNat < 0x20 ∨ c = '\\' then none
      let (pieces, rest) ← readPieces rest
      return (.char c :: pieces, rest)

@[simp]
theorem readPieces_nil : readPieces [] = none := by rw [readPieces]

def isHighSurrogate (n : Nat) : Bool := 0xd800 ≤ n && n < 0xdc00

def isLowSurrogate (n : Nat) : Bool := 0xdc00 ≤ n && n < 0xe000

/-- The character of a high and a low surrogate. -/
def pairChar (high low : Nat) : Char :=
  Char.ofNat (0x10000 + (high - 0xd800) * 0x400 + (low - 0xdc00))

/-- The text of pieces: surrogates stand in pairs or the literal has no text. -/
def piecesText? : List Piece → Option (List Char)
  | [] => some []
  | .char c :: rest => (piecesText? rest).map (c :: ·)
  | .unit high :: rest =>
      if isHighSurrogate high then
        match rest with
        | .unit low :: rest =>
            if isLowSurrogate low then (piecesText? rest).map (pairChar high low :: ·) else none
        | _ => none
      else if isLowSurrogate high then none
      else (piecesText? rest).map (Char.ofNat high :: ·)

/-- The rest of a literal whose opening quote is read. -/
def readLiteral (cs : List Char) : Option (Option String × List Char) := do
  let (pieces, rest) ← readPieces cs
  return ((piecesText? pieces).map String.ofList, rest)

def readText (cs : List Char) : Option (String × List Char) :=
  match cs with
  | '"' :: rest => do
      let (literal, rest) ← readLiteral rest
      return (← literal, rest)
  | _ => none

def isDigit (c : Char) : Bool := (digit? c).isSome

def readDigits (cs : List Char) : List Nat × List Char :=
  ((cs.takeWhile isDigit).filterMap digit?, cs.dropWhile isDigit)

def readFraction (cs : List Char) : Option (List Nat × List Char) :=
  match cs with
  | '.' :: rest =>
      let (ds, rest) := readDigits rest
      if ds.isEmpty then none else some (ds, rest)
  | _ => some ([], cs)

/-- The exponent after its letter, if there is one. -/
def readExponent (cs : List Char) : Option (Option Int × List Char) :=
  match cs with
  | c :: rest =>
      if c = 'e' ∨ c = 'E' then
        let (negative, rest) := match rest with
          | '-' :: rest => (true, rest)
          | '+' :: rest => (false, rest)
          | _ => (false, rest)
        let (ds, rest) := readDigits rest
        let n : Int := ofDigits 10 ds
        if ds.isEmpty then none else some (some (if negative then -n else n), rest)
      else some (none, cs)
  | [] => some (none, cs)

/-- A number after its sign. -/
def readUnsigned (negative : Bool) (cs : List Char) : Option (Numeral × List Char) := do
  let (ds, rest) := readDigits cs
  if ds.isEmpty ∨ (1 < ds.length ∧ ds.head? = some 0) then none
  let (fraction, rest) ← readFraction rest
  let (exponent, rest) ← readExponent rest
  return (⟨negative, ofDigits 10 ds, fraction, exponent⟩, rest)

def readNumeral (cs : List Char) : Option (Numeral × List Char) :=
  match cs with
  | '-' :: rest => readUnsigned true rest
  | _ => readUnsigned false cs

def afterWord? (word : String) (cs : List Char) : Option (List Char) :=
  if word.toList.isPrefixOf cs then some (cs.drop word.length) else none

mutual

/-- A value, after any spaces. The fuel bounds the nesting. -/
def readValueFrom : Nat → List Char → Option (Json × List Char)
  | 0, _ => none
  | fuel + 1, cs =>
      match skipSpace cs with
      | '"' :: rest => do
          let (literal, rest) ← readLiteral rest
          return (.string literal, rest)
      | '[' :: rest =>
          match skipSpace rest with
          | ']' :: rest => some (.array [], rest)
          | rest => do
              let (items, rest) ← readItemsFrom fuel rest
              return (.array items, rest)
      | '{' :: rest =>
          match skipSpace rest with
          | '}' :: rest => some (.object [], rest)
          | rest => do
              let (fields, rest) ← readFieldsFrom fuel rest
              return (.object fields, rest)
      | 'n' :: rest => do return (.null, ← afterWord? "ull" rest)
      | 't' :: rest => do return (.bool true, ← afterWord? "rue" rest)
      | 'f' :: rest => do return (.bool false, ← afterWord? "alse" rest)
      | cs => do
          let (n, rest) ← readNumeral cs
          return (.number n, rest)

/-- One or more items and the bracket that closes them. -/
def readItemsFrom : Nat → List Char → Option (List Json × List Char)
  | 0, _ => none
  | fuel + 1, cs => do
      let (item, rest) ← readValueFrom fuel cs
      match skipSpace rest with
      | ']' :: rest => return ([item], rest)
      | ',' :: rest =>
          let (items, rest) ← readItemsFrom fuel rest
          return (item :: items, rest)
      | _ => none

/-- One or more fields and the brace that closes them. -/
def readFieldsFrom : Nat → List Char → Option (List (Option String × Json) × List Char)
  | 0, _ => none
  | fuel + 1, cs =>
      match skipSpace cs with
      | '"' :: rest => do
          let (key, rest) ← readLiteral rest
          match skipSpace rest with
          | ':' :: rest =>
              let (value, rest) ← readValueFrom fuel rest
              match skipSpace rest with
              | '}' :: rest => return ([(key, value)], rest)
              | ',' :: rest =>
                  let (fields, rest) ← readFieldsFrom fuel rest
                  return ((key, value) :: fields, rest)
              | _ => none
          | _ => none
      | _ => none

end

@[simp]
theorem readValueFrom_zero (cs : List Char) : readValueFrom 0 cs = none := by rw [readValueFrom]

@[simp]
theorem readItemsFrom_zero (cs : List Char) : readItemsFrom 0 cs = none := by rw [readItemsFrom]

@[simp]
theorem readFieldsFrom_zero (cs : List Char) : readFieldsFrom 0 cs = none := by rw [readFieldsFrom]

/-- The value at the head of a text and what follows it. Each character opens one level of values and
one of items at most. -/
def readValue (cs : List Char) : Option (Json × List Char) := readValueFrom (2 * cs.length + 2) cs

/-- The document that a text is, spaces around it apart. -/
def read? (cs : List Char) : Option Json :=
  match readValue cs with
  | some (value, rest) => if (skipSpace rest).isEmpty then some value else none
  | none => none

end ContentProbe.Json
