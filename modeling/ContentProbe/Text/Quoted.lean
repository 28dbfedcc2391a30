import ContentProbe.Text.Digits
import ContentProbe.Text.Printable

/-!
Texts quoted for a message: double quotes around, a backslash before a quote or a backslash, letters
for the four common controls, and the code point in braces for every other hidden character.
-/

namespace ContentProbe.Text

/-- Hexadecimal text without leading zeros. -/
def hexShort (n : Nat) : List Char := Nat.toDigits 16 n

def quotedChar (c : Char) : List Char :=
  match c with
  | '"' => ['\\', '"']
  | '\\' => ['\\', '\\']
  | '\t' => ['\\', 't']
  | '\n' => ['\\', 'n']
  | '\r' => ['\\', 'r']
  | '\x00' => ['\\', '0']
  | _ => if isShown c then [c] else ['\\', 'u', '{'] ++ hexShort c.toNat ++ ['}']

def quoted (s : String) : String :=
  String.ofList ('"' :: s.toList.flatMap quotedChar ++ ['"'])

end ContentProbe.Text
