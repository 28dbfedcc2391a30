import ContentProbe.Text.Digits

/-!
Internet addresses and their texts. Of the four parts of an address of version 4 none has a leading zero.
An address of version 6 has eight groups of up to four hexadecimal digits; one run of zero groups may be
left out, and the last two groups may stand as an address of version 4. It is written with its first
longest run of two or more zero groups left out, and as a mapped address of version 4 where it is one.
-/

namespace ContentProbe

open ContentProbe.Text

inductive Address where
  | v4 (octets : List Nat)
  | v6 (groups : List Nat)
  deriving DecidableEq, Repr

namespace Address

def localhost : Address := .v4 [127, 0, 0, 1]

def readOctet (cs : List Char) : Option (Nat × List Char) := do
  let digits := cs.takeWhile fun c => (digit? c).isSome
  let n ← readDigits? digits
  if 3 < digits.length ∨ (1 < digits.length ∧ digits.head? = some '0') ∨ 255 < n then none
  return (n, cs.drop digits.length)

/-- Octets with points between them, `count` and one more. -/
def readOctets : Nat → List Char → Option (List Nat × List Char)
  | 0, cs => (readOctet cs).map fun (n, rest) => ([n], rest)
  | count + 1, cs => do
      let (n, rest) ← readOctet cs
      match rest with
      | '.' :: rest => (readOctets count rest).map fun (ns, rest) => (n :: ns, rest)
      | _ => none

def readV4 (cs : List Char) : Option (List Nat × List Char) := readOctets 3 cs

/-- One to four hexadecimal digits. -/
def readGroup (cs : List Char) : Option (Nat × List Char) := do
  let digits := cs.takeWhile fun c => (hexDigit? c).isSome
  if digits.isEmpty ∨ 4 < digits.length then none
  return (ofDigits 16 (← digits.mapM hexDigit?), cs.drop digits.length)

/-- What follows the colon that stands before every group but the first. -/
def afterColon? (first : Bool) (cs : List Char) : Option (List Char) :=
  if first then some cs
  else match cs with
    | ':' :: rest => some rest
    | _ => none

/-- As many groups as there are, `room` of them at most; true when the last two stood as an address of
version 4, which ends the groups. -/
def readGroups : Nat → Bool → List Char → List Nat × Bool × List Char
  | 0, _, cs => ([], false, cs)
  | room + 1, first, cs =>
      match afterColon? first cs with
      | none => ([], false, cs)
      | some inner =>
          match (if 0 < room then readV4 inner else none) with
          | some ([a, b, c, d], rest) => ([a * 256 + b, c * 256 + d], true, rest)
          | _ =>
              match readGroup inner with
              | none => ([], false, cs)
              | some (n, rest) =>
                  let (groups, embedded, rest) := readGroups room false rest
                  (n :: groups, embedded, rest)

def readV6 (cs : List Char) : Option (List Nat × List Char) :=
  match readGroups 8 true cs with
  | (head, embedded, rest) =>
      if head.length = 8 then some (head, rest)
      else if embedded then none
      else match rest with
        | ':' :: ':' :: rest =>
            let (tail, _, rest) := readGroups (7 - head.length) true rest
            some (head ++ List.replicate (8 - head.length - tail.length) 0 ++ tail, rest)
        | _ => none

def read? (cs : List Char) : Option Address :=
  match readV4 cs with
  | some (octets, rest) => if rest.isEmpty then some (.v4 octets) else none
  | none =>
      match readV6 cs with
      | some (groups, []) => some (.v6 groups)
      | _ => none

def joined (separator : Char) (parts : List (List Char)) : List Char :=
  [separator].intercalate parts

def v4Text (octets : List Nat) : List Char := joined '.' (octets.map natText)

def groupText (n : Nat) : List Char := Nat.toDigits 16 n

def zeroRun (groups : List Nat) : Nat := (groups.takeWhile (· = 0)).length

/-- The position and the length of the first longest run of zeros. -/
def longestRun (groups : List Nat) : Nat × Nat :=
  (List.range groups.length).foldl
    (fun best i =>
      let run := zeroRun (groups.drop i)
      if best.2 < run then (i, run) else best)
    (0, 0)

def v6Text (groups : List Nat) : List Char :=
  match groups with
  | [0, 0, 0, 0, 0, 65535, a, b] =>
      "::ffff:".toList ++ v4Text [a / 256, a % 256, b / 256, b % 256]
  | _ =>
      let (position, run) := longestRun groups
      if 1 < run then
        joined ':' ((groups.take position).map groupText) ++ [':', ':'] ++
          joined ':' ((groups.drop (position + run)).map groupText)
      else joined ':' (groups.map groupText)

/-- An address with the number of a socket; an address of version 6 stands in brackets. -/
def socketText (a : Address) (socket : Nat) : String :=
  String.ofList (match a with
    | .v4 octets => v4Text octets ++ ':' :: natText socket
    | .v6 groups => '[' :: v6Text groups ++ ']' :: ':' :: natText socket)

end Address

end ContentProbe
