import ContentProbe.Text.Digits

/-!
Bytes and their texts: hexadecimal, padded base 64, and UTF-8, of which malformed stretches are told.
-/

namespace ContentProbe.Text

def byteHex (bytes : List UInt8) : List Char := bytes.flatMap fun b => hexText 2 b.toNat

/-- The bytes of an even number of hexadecimal digits. -/
def bytesOfHex? : List Char → Option (List UInt8)
  | [] => some []
  | [_] => none
  | a :: b :: rest => do
      let high ← hexDigit? a
      let low ← hexDigit? b
      return UInt8.ofNat (high * 16 + low) :: (← bytesOfHex? rest)

/-- The `count` lowest bytes of a number, the most significant first. -/
def bytesOfNat (count n : Nat) : List UInt8 := (digitsFixed 256 count n).map UInt8.ofNat

/-- The number whose big-endian bytes are given. -/
def natOfBytes (bytes : List UInt8) : Nat := ofDigits 256 (bytes.map UInt8.toNat)

def base64Char (n : Nat) : Char :=
  if n < 26 then Char.ofNat ('A'.toNat + n)
  else if n < 52 then Char.ofNat ('a'.toNat + (n - 26))
  else if n < 62 then Char.ofNat ('0'.toNat + (n - 52))
  else if n = 62 then '+' else '/'

/-- Base 64 text, filled up with equals signs to whole groups of four. -/
def base64 : List UInt8 → List Char
  | a :: b :: c :: rest =>
      let n := natOfBytes [a, b, c]
      (digitsFixed 64 4 n).map base64Char ++ base64 rest
  | [a, b] => (digitsFixed 64 3 (natOfBytes [a, b] * 4)).map base64Char ++ ['=']
  | [a] => (digitsFixed 64 2 (a.toNat * 16)).map base64Char ++ ['=', '=']
  | [] => []

def utf8Bytes (s : String) : List UInt8 := s.toUTF8.toList

/-- What the first bytes hold: a character and its length, or the length of a stretch that no
character can start with. -/
inductive Utf8Head where
  | char (c : Char) (size : Nat)
  | malformed (size : Nat)

/-- The byte continues a character and lies in the given range. -/
def isTail (b : UInt8) (low : UInt8) (high : UInt8) : Bool := low ≤ b && b ≤ high

/-- The character at the head of a byte sequence. The range of the second byte excludes overlong forms,
surrogates and numbers beyond the last code point; a malformed stretch is the longest beginning of
a well-formed character, one byte at least. -/
def utf8Head (b : UInt8) (rest : List UInt8) : Utf8Head :=
  let tail (x : UInt8) : Nat := x.toNat % 64
  if b < 0x80 then .char (Char.ofNat b.toNat) 1
  else if 0xc2 ≤ b && b ≤ 0xdf then
    match rest with
    | x :: _ => if isTail x 0x80 0xbf then .char (Char.ofNat (b.toNat % 32 * 64 + tail x)) 2
                else .malformed 1
    | [] => .malformed 1
  else if 0xe0 ≤ b && b ≤ 0xef then
    let low : UInt8 := if b == 0xe0 then 0xa0 else 0x80
    let high : UInt8 := if b == 0xed then 0x9f else 0xbf
    match rest with
    | x :: y :: _ =>
        if !isTail x low high then .malformed 1
        else if !isTail y 0x80 0xbf then .malformed 2
        else .char (Char.ofNat ((b.toNat % 16 * 64 + tail x) * 64 + tail y)) 3
    | [x] => if isTail x low high then .malformed 2 else .malformed 1
    | [] => .malformed 1
  else if 0xf0 ≤ b && b ≤ 0xf4 then
    let low : UInt8 := if b == 0xf0 then 0x90 else 0x80
    let high : UInt8 := if b == 0xf4 then 0x8f else 0xbf
    match rest with
    | x :: more =>
        if !isTail x low high then .malformed 1
        else match more with
          | y :: last =>
              if !isTail y 0x80 0xbf then .malformed 2
              else match last with
                | z :: _ =>
                    if !isTail z 0x80 0xbf then .malformed 3
                    else .char (Char.ofNat
                      (((b.toNat % 8 * 64 + tail x) * 64 + tail y) * 64 + tail z)) 4
                | [] => .malformed 3
          | [] => .malformed 2
    | [] => .malformed 1
  else .malformed 1

/-- The characters of any bytes, with none for each malformed stretch. `skip` counts the bytes that an earlier
character or stretch took. -/
def utf8Symbols : Nat → List UInt8 → List (Option Char)
  | _, [] => []
  | skip + 1, _ :: rest => utf8Symbols skip rest
  | 0, b :: rest =>
      match utf8Head b rest with
      | .char c size => some c :: utf8Symbols (size - 1) rest
      | .malformed size => none :: utf8Symbols (size - 1) rest

/-- The text of any bytes; each malformed stretch becomes one replacement character. -/
def utf8Lossy (bytes : List UInt8) : String :=
  String.ofList ((utf8Symbols 0 bytes).map (·.getD '\ufffd'))

end ContentProbe.Text
