import ContentProbe.ContentId.Multibase
import ContentProbe.ContentId.Varint

/-!
Content ids: a version, a codec and a hash with its function code. The first version is a bare hash
of one kind, written in base 58; the second is written in any multibase. The raw key of an id keeps its
hash and drops the rest, so that ids of the same content under different codecs meet in it.
-/

namespace ContentProbe

structure Multihash where
  code : UInt64
  digest : List UInt8
  deriving DecidableEq, Repr

inductive ContentId.Version where
  | zero
  | one
  deriving DecidableEq, Repr

structure ContentId where
  version : ContentId.Version
  codec : UInt64
  hash : Multihash
  deriving DecidableEq, Repr

namespace ContentId

open ContentProbe.Text

inductive Fault where
  | tooShort
  | undecodable
  | endOfInput
  | shortDigest
  | varint
  | explicitZero
  | unknownVersion
  deriving DecidableEq, Repr

def Fault.message : Fault → String
  | .tooShort => "Input too short"
  | .undecodable => "Failed to parse multihash"
  | .endOfInput => "unexpected end of file"
  | .shortDigest => "failed to fill whole buffer"
  | .varint => "Failed to decode unsigned varint format"
  | .explicitZero => "CIDv0 cannot be specified in CIDv1 format"
  | .unknownVersion => "Unrecognized CID version"

def maxDigest : Nat := 64

/-- The codec of bytes without structure. -/
def rawCodec : UInt64 := 0x55

/-- The codec that ids of version zero imply. -/
def treeCodec : UInt64 := 0x70

/-- The hash function of ids of version zero, and the length of its digest. -/
def sha256Code : UInt64 := 0x12

def sha256Size : Nat := 32

def readVarint (bytes : List UInt8) : Except Fault (UInt64 × List UInt8) :=
  match Varint.read bytes with
  | .ok r => .ok r
  | .error .ended => .error .endOfInput
  | .error .malformed => .error .varint

/-- A function code, a length and so many bytes; what follows them is ignored. -/
def Multihash.ofBytes? (bytes : List UInt8) : Option Multihash :=
  match Varint.read bytes with
  | .error _ => none
  | .ok (code, rest) =>
      match Varint.read rest with
      | .error _ => none
      | .ok (size, rest) =>
          if size.toNat ≤ maxDigest ∧ size.toNat ≤ rest.length then
            some ⟨code, rest.take size.toNat⟩
          else none

def Multihash.toBytes (hash : Multihash) : List UInt8 :=
  Varint.write hash.code ++ Varint.write (UInt64.ofNat hash.digest.length) ++ hash.digest

/-- Reads an id from its bytes. A version and codec that spell the start of a bare hash make an id of
version zero. -/
def ofBytes (bytes : List UInt8) : Except Fault ContentId := do
  let (version, rest) ← readVarint bytes
  let (codec, rest) ← readVarint rest
  if version = sha256Code ∧ codec.toNat = sha256Size then
    if rest.length < sha256Size then throw .shortDigest
    return ⟨.zero, treeCodec, ⟨sha256Code, rest.take sha256Size⟩⟩
  if version = 0 then throw .explicitZero
  if version ≠ 1 then throw .unknownVersion
  match Multihash.ofBytes? rest with
  | some hash => return ⟨.one, codec, hash⟩
  | none => throw .undecodable

/-- What follows the first `/ipfs/`, or all of a text without it. -/
def afterPath : List Char → List Char → List Char
  | whole, [] => whole
  | whole, c :: rest =>
      if "/ipfs/".toList.isPrefixOf (c :: rest) then (c :: rest).drop 6 else afterPath whole rest

/-- Texts of 46 bytes that start like a bare hash are in base 58 without a tag. -/
def isBareHash (cs : List Char) : Bool :=
  "Qm".toList.isPrefixOf cs && (String.ofList cs).utf8ByteSize == 46

def parse (text : String) : Except Fault ContentId := do
  let cs := afterPath text.toList text.toList
  if (String.ofList cs).utf8ByteSize < 2 then throw .tooShort
  let bytes := if isBareHash cs then Multibase.decodeNumber? Multibase.base58.toList cs
    else Multibase.decode? cs
  match bytes with
  | some bytes => ofBytes bytes
  | none => throw .undecodable

/-- The id of the same hash as bytes without structure. -/
def raw (id : ContentId) : ContentId := ⟨.one, rawCodec, id.hash⟩

/-- The base 32 text of the id in version one. -/
def render (id : ContentId) : String :=
  String.ofList (Multibase.encodeBase32
    (Varint.write 1 ++ Varint.write id.codec ++ Multihash.toBytes id.hash))

/-- The text under which the hash of an id is announced. -/
def rawKey (text : String) : Except Fault String := do
  return (← parse text).raw.render

end ContentId

end ContentProbe
