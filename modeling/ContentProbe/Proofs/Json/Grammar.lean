import ContentProbe.Json.Reader
import ContentProbe.Proofs.Text.Denotation

/-!
The grammar of JSON, said without a reader. Each kind of value has its texts; spaces may stand on both sides of each
value and key; and a document is a value with spaces around it. A literal is told by the pieces between its quotes,
which spell characters, or units of UTF-16 that stand alone or in pairs.
-/

namespace ContentProbe.Json

open ContentProbe.Text

/-! Literals -/

/-- The letters that may stand behind a backslash, and what they stand for. -/
def letters : List (Char × Char) :=
  [('"', '"'), ('\\', '\\'), ('/', '/'), ('b', '\x08'), ('f', '\x0c'), ('n', '\n'), ('r', '\r'), ('t', '\t')]

/-- The text of one piece of a literal. -/
inductive PieceText : List Char → Piece → Prop where
  | plain {c : Char} (hquote : c ≠ '"') (hbackslash : c ≠ '\\') (hcontrol : 0x20 ≤ c.toNat) : PieceText [c] (.char c)
  | letter {letter c : Char} (h : (letter, c) ∈ letters) : PieceText ['\\', letter] (.char c)
  | digits {ds : List Char} {n : Nat} (hlength : ds.length = 4) (h : Denotes 16 ds n) :
      PieceText ('\\' :: 'u' :: ds) (.unit n)

inductive PiecesText : List Char → List Piece → Prop where
  | nil : PiecesText [] []
  | cons {text more : List Char} {piece : Piece} {pieces : List Piece} (hpiece : PieceText text piece)
      (hmore : PiecesText more pieces) : PiecesText (text ++ more) (piece :: pieces)

/-- The characters that pieces mean. A unit alone is the number of a character, and no character has the number of a
surrogate; characters beyond the first 65536 take two units, a high surrogate and a low one. -/
inductive Means : List Piece → List Char → Prop where
  | nil : Means [] []
  | char {c : Char} {pieces : List Piece} {cs : List Char} (h : Means pieces cs) : Means (.char c :: pieces) (c :: cs)
  | unit {c : Char} {pieces : List Piece} {cs : List Char} (h : Means pieces cs) :
      Means (.unit c.toNat :: pieces) (c :: cs)
  | pair {c : Char} {high low : Nat} {pieces : List Piece} {cs : List Char} (hhigh : high < 0x400) (hlow : low < 0x400)
      (hc : c.toNat = 0x10000 + high * 0x400 + low) (h : Means pieces cs) :
      Means (.unit (0xd800 + high) :: .unit (0xdc00 + low) :: pieces) (c :: cs)

/-- The text of a literal, with its quotes. The literal denotes what its pieces mean, or nothing if they mean
nothing. -/
def LiteralText (cs : List Char) (s : Option String) : Prop :=
  ∃ text pieces, cs = '"' :: (text ++ ['"']) ∧ PiecesText text pieces ∧ ∀ t, s = some t ↔ Means pieces t.toList

/-! Numbers -/

/-- A sign may stand before a number, with the factor that it stands for. -/
inductive SignText : List Char → Bool → Prop where
  | none : SignText [] false
  | minus : SignText ['-'] true

/-- Digits without a needless zero before them. -/
structure WholeText (cs : List Char) (n : Nat) : Prop where
  denotes : Denotes 10 cs n
  nonempty : cs ≠ []
  noZero : cs.head? = some '0' → cs = ['0']

inductive FractionText : List Char → List Nat → Prop where
  | none : FractionText [] []
  | digits {cs : List Char} {ds : List Nat} (hdigits : List.Forall₂ (DigitOf 10) cs ds) (hds : ds ≠ []) :
      FractionText ('.' :: cs) ds

inductive ExponentText : List Char → Option Int → Prop where
  | none : ExponentText [] none
  | positive {letter : Char} {sign cs : List Char} {n : Nat} (hletter : letter = 'e' ∨ letter = 'E')
      (hsign : sign = [] ∨ sign = ['+']) (hdenotes : Denotes 10 cs n) (hcs : cs ≠ []) :
      ExponentText (letter :: (sign ++ cs)) (some n)
  | negative {letter : Char} {cs : List Char} {n : Nat} (hletter : letter = 'e' ∨ letter = 'E')
      (hdenotes : Denotes 10 cs n) (hcs : cs ≠ []) : ExponentText (letter :: '-' :: cs) (some (-n))

def NumeralText (cs : List Char) (n : Numeral) : Prop :=
  ∃ sign whole fraction exponent, cs = sign ++ (whole ++ (fraction ++ exponent)) ∧ SignText sign n.negative ∧
    WholeText whole n.whole ∧ FractionText fraction n.fraction ∧ ExponentText exponent n.exponent

/-! Values -/

def Spaces (cs : List Char) : Prop := ∀ c ∈ cs, c = ' ' ∨ c = '\n' ∨ c = '\t' ∨ c = '\r'

/-- A text of a kind with spaces around it. -/
def Padded (IsText : List Char → Prop) (cs : List Char) : Prop :=
  ∃ before text after, Spaces before ∧ IsText text ∧ Spaces after ∧ cs = before ++ (text ++ after)

mutual

/-- The value has the text. -/
def Spells : Json → List Char → Prop
  | .null, cs => cs = ['n', 'u', 'l', 'l']
  | .bool true, cs => cs = ['t', 'r', 'u', 'e']
  | .bool false, cs => cs = ['f', 'a', 'l', 's', 'e']
  | .number n, cs => NumeralText cs n
  | .string s, cs => LiteralText cs s
  | .array items, cs => ∃ rest, cs = '[' :: rest ∧ SpellsItems items rest
  | .object fields, cs => ∃ rest, cs = '{' :: rest ∧ SpellsFields fields rest

/-- The items of an array have the text, which ends with the closing bracket. -/
def SpellsItems : List Json → List Char → Prop
  | [], cs => ∃ gap, Spaces gap ∧ cs = gap ++ [']']
  | item :: items, cs => ∃ text rest, Padded (Spells item) text ∧ cs = text ++ rest ∧
      ((items = [] ∧ rest = [']']) ∨ (items ≠ [] ∧ ∃ more, rest = ',' :: more ∧ SpellsItems items more))

/-- The fields of an object have the text, which ends with the closing brace. -/
def SpellsFields : List (Option String × Json) → List Char → Prop
  | [], cs => ∃ gap, Spaces gap ∧ cs = gap ++ ['}']
  | (key, value) :: fields, cs => ∃ name text rest, Padded (LiteralText · key) name ∧ Padded (Spells value) text ∧
      cs = name ++ ':' :: (text ++ rest) ∧
      ((fields = [] ∧ rest = ['}']) ∨ (fields ≠ [] ∧ ∃ more, rest = ',' :: more ∧ SpellsFields fields more))

end

/-- The text is a document. -/
def IsDocument (cs : List Char) (j : Json) : Prop := Padded (Spells j) cs

end ContentProbe.Json
