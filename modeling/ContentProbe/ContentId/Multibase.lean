import ContentProbe.Text.Bytes

/-!
Self-describing texts of bytes: the first character names the scheme, the rest is the text in it. A
scheme either regroups bits, writes one large number, writes triples in base 45 or gives each byte a
symbol. Texts of the grouping schemes have one form only: impossible lengths, left-over bits that
are not zero and wrong padding are refused.
-/

namespace ContentProbe.ContentId.Multibase

open ContentProbe.Text

/-- How the text after the first character stands for bytes. `fold` takes both cases of a letter;
`padded` fills each group up with equals signs. -/
inductive Scheme where
  | utf8
  | grouped (bits : Nat) (alphabet : String) (fold padded : Bool)
  | number (alphabet : String) (fold : Bool)
  | triples
  | symbols (alphabet : String)
  deriving DecidableEq, Repr

def decimal : String := "0123456789"

def lowerLetters : String := "abcdefghijklmnopqrstuvwxyz"

def upperLetters : String := "ABCDEFGHIJKLMNOPQRSTUVWXYZ"

def base16 : String := "0123456789abcdef"

def base32 : String := lowerLetters ++ "234567"

def base32Hex : String := "0123456789abcdefghijklmnopqrstuv"

def base32Human : String := "ybndrfg8ejkmcpqxot1uwisza345h769"

def base45 : String := decimal ++ upperLetters ++ " $%*+-./:"

def base58 : String := "123456789ABCDEFGHJKLMNPQRSTUVWXYZabcdefghijkmnopqrstuvwxyz"

def base58LowerFirst : String := "123456789abcdefghijkmnopqrstuvwxyzABCDEFGHJKLMNPQRSTUVWXYZ"

def base64Standard : String := upperLetters ++ lowerLetters ++ decimal ++ "+/"

def base64Url : String := upperLetters ++ lowerLetters ++ decimal ++ "-_"

/-- One symbol for each byte, in the order of the bytes. -/
def byteSymbols : String :=
  "🚀🪐☄🛰🌌🌑🌒🌓🌔🌕🌖🌗🌘🌍🌏🌎🐉☀💻🖥💾💿😂❤😍🤣😊🙏💕😭😘👍😅👏😁🔥🥰💔💖💙😢🤔😆🙄💪😉☺👌🤗💜😔😎😇🌹🤦🎉💞✌✨🤷😱😌🌸🙌" ++
  "😋💗💚😏💛🙂💓🤩😄😀🖤😃💯🙈👇🎶😒🤭❣😜💋👀😪😑💥🙋😞😩😡🤪👊🥳😥🤤👉💃😳✋😚😝😴🌟😬🙃🍀🌷😻😓⭐✅🥺🌈😈🤘💦✔😣🏃💐☹🎊💘😠☝" ++
  "😕🌺🎂🌻😐🖕💝🙊😹🗣💫💀👑🎵🤞😛🔴😤🌼😫⚽🤙☕🏆🤫👈😮🙆🍻🍃🐶💁😲🌿🧡🎁⚡🌞🎈❌✊👋😰🤨😶🤝🚶💰🍓💢🤟🙁🚨💨🤬✈🎀🍺🤓😙💟🌱😖👶" ++
  "🥴▶➡❓💎💸⬇😨🌚🦋😷🕺⚠🙅😟😵👎🤲🤠🤧📌🔵💅🧐🐾🍒😗🤑🌊🤯🐷☎💧😯💆👆🎤🙇🍑❄🌴💣🐸💌📍🥀🤢👅💡💩👐📸👻🤐🤮🎼🥵🚩🍎🍊👼💍📣🥂"

/-- The scheme that a first character names. -/
def Scheme.ofTag? (tag : Char) : Option Scheme :=
  match tag with
  | '\x00' => some .utf8
  | '0' => some (.grouped 1 "01" false false)
  | '7' => some (.grouped 3 "01234567" false false)
  | '9' => some (.number decimal false)
  | 'f' | 'F' => some (.grouped 4 base16 true false)
  | 'b' | 'B' => some (.grouped 5 base32 true false)
  | 'c' | 'C' => some (.grouped 5 base32 true true)
  | 'v' | 'V' => some (.grouped 5 base32Hex true false)
  | 't' | 'T' => some (.grouped 5 base32Hex true true)
  | 'h' => some (.grouped 5 base32Human false false)
  | 'k' | 'K' => some (.number (decimal ++ lowerLetters) true)
  | 'R' => some .triples
  | 'Z' => some (.number base58LowerFirst false)
  | 'z' => some (.number base58 false)
  | 'm' => some (.grouped 6 base64Standard false false)
  | 'M' => some (.grouped 6 base64Standard false true)
  | 'u' => some (.grouped 6 base64Url false false)
  | 'U' => some (.grouped 6 base64Url false true)
  | '🚀' => some (.symbols byteSymbols)
  | _ => none

def position? (alphabet : List Char) (c : Char) : Option Nat := alphabet.idxOf? c

def symbolAt (alphabet : List Char) (i : Nat) : Char := alphabet.getD i ' '

/-- The bytes that hold the given groups of bits. Bits that fill no byte must be zero and fewer than a
group. -/
def ungroup? (bits : Nat) (groups : List Nat) : Option (List UInt8) :=
  let size := bits * groups.length / 8
  let spare := bits * groups.length % 8
  let value := ofDigits (Nat.pow 2 bits) groups
  if spare < bits ∧ value % Nat.pow 2 spare = 0 then some (bytesOfNat size (value / Nat.pow 2 spare)) else none

/-- The fewest groups of bits that hold the bytes, filled up with zero bits. -/
def regroup (bits : Nat) (bytes : List UInt8) : List Nat :=
  let count := (8 * bytes.length + bits - 1) / bits
  digitsFixed (Nat.pow 2 bits) count (natOfBytes bytes * Nat.pow 2 (bits * count - 8 * bytes.length))

def decodeGroups? (bits : Nat) (alphabet cs : List Char) : Option (List UInt8) := do
  ungroup? bits (← cs.mapM (position? alphabet))

/-- The symbols in the smallest number of whole groups that fill whole bytes. -/
def blockSize (bits : Nat) : Nat := Nat.lcm bits 8 / bits

/-- The bytes of a padded text: every block of symbols ends in as many equals signs as it lacks
symbols, and holds one symbol at least. -/
def decodePadded? (bits : Nat) (alphabet : List Char) : Nat → List Char → Option (List UInt8)
  | _, [] => some []
  | 0, _ :: _ => none
  | blocks + 1, c :: cs => do
      let block := (c :: cs).take (blockSize bits)
      let symbols := (block.reverse.dropWhile (· == '=')).reverse
      if block.length < blockSize bits ∨ symbols.isEmpty then none
      let bytes ← decodeGroups? bits alphabet symbols
      return bytes ++ (← decodePadded? bits alphabet blocks ((c :: cs).drop (blockSize bits)))

/-- The fewest bytes of a number, the most significant first. -/
def minimalBytes (n : Nat) : List UInt8 :=
  if n = 0 then [] else minimalBytes (n / 256) ++ [UInt8.ofNat (n % 256)]
termination_by n

/-- The bytes of a number; every zero symbol at the front stands for a zero byte. -/
def decodeNumber? (alphabet cs : List Char) : Option (List UInt8) := do
  let ds ← cs.mapM (position? alphabet)
  let zeros := (ds.takeWhile (· == 0)).length
  return List.replicate zeros 0 ++ minimalBytes (ofDigits alphabet.length ds)

/-- Three symbols, the lowest first, are two bytes; two at the end are one byte, taken modulo 256. -/
def untriple? : List Nat → Option (List UInt8)
  | [] => some []
  | a :: b :: c :: rest =>
      let value := a + b * 45 + c * 45 * 45
      if value < 65536 then (untriple? rest).map (bytesOfNat 2 value ++ ·) else none
  | [a, b] => some [UInt8.ofNat (a + b * 45)]
  | [_] => none

def lowered (c : Char) : Char := c.toLower

def Scheme.decode? : Scheme → List Char → Option (List UInt8)
  | .utf8, cs => some (utf8Bytes (String.ofList cs))
  | .grouped bits alphabet fold padded, cs =>
      let cs := if fold then cs.map lowered else cs
      if padded then decodePadded? bits alphabet.toList cs.length cs
      else decodeGroups? bits alphabet.toList cs
  | .number alphabet fold, cs =>
      decodeNumber? alphabet.toList (if fold then cs.map lowered else cs)
  | .triples, cs => do untriple? (← cs.mapM fun c => position? base45.toList c.toUpper)
  | .symbols alphabet, cs => do return (← cs.mapM (position? alphabet.toList)).map UInt8.ofNat

/-- The bytes of a text whose first character names its scheme. -/
def decode? : List Char → Option (List UInt8)
  | [] => none
  | tag :: cs => do (← Scheme.ofTag? tag).decode? cs

/-- The lower case base 32 text of bytes, with its first character. -/
def encodeBase32 (bytes : List UInt8) : List Char :=
  'b' :: (regroup 5 bytes).map (symbolAt base32.toList)

end ContentProbe.ContentId.Multibase
