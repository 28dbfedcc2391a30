import ContentProbe.ContentId.Basic
import ContentProbe.Proofs.ContentId.Multibase
import Mathlib.Data.String.Basic

/-!
The raw key of a content id. Every layer of an id is read back from what is written of it: its numbers, its
hash with a digest of at most 64 bytes, and its base 32 text, which is neither a bare hash nor holds a path.
So the text of an id in version one denotes that id. Since every id that is read has such a digest, its raw
key tells its hash and nothing else.
-/

namespace ContentProbe.ContentId

open ContentProbe.Text

/-! Numbers -/

namespace Varint

/-- A number is read back from what is written of it, if there is room for it. Only a single byte may be
zero. -/
theorem readFrom_writeNat {room n : Nat} (hn : n < 128 ^ room) (hzero : n = 0 → room = maxBytes)
    (rest : List UInt8) : readFrom room (writeNat n ++ rest) = .ok (n, rest) := by
  induction room generalizing n with
  | zero => cases hzero (Nat.lt_one_iff.mp hn)
  | succ room ih =>
      by_cases hlast : n < 128
      · have hbyte : (UInt8.ofNat n).toNat = n := UInt8.toNat_ofNat_of_lt' (Nat.lt_trans hlast (by decide))
        have hsmall : UInt8.ofNat n < 128 := by
          rw [UInt8.lt_iff_toNat_lt, hbyte]
          exact hlast
        have hwhole : ¬ (UInt8.ofNat n = 0 ∧ room + 1 < maxBytes) := by
          rintro ⟨hnull, hroom⟩
          have hnull : n = 0 := hbyte ▸ congrArg UInt8.toNat hnull
          omega
        rw [writeNat, if_pos hlast, List.singleton_append, readFrom, if_pos hsmall, if_neg hwhole, hbyte]
      · have hbyte : (UInt8.ofNat (n % 128 + 128)).toNat = n % 128 + 128 :=
          UInt8.toNat_ofNat_of_lt' (Nat.add_lt_add_right (Nat.mod_lt n (by decide)) 128)
        have hlarge : ¬ UInt8.ofNat (n % 128 + 128) < 128 := by
          rw [UInt8.lt_iff_toNat_lt, hbyte]
          simp
        have hhigh : n / 128 < 128 ^ room := Nat.div_lt_of_lt_mul (by rwa [← pow_succ'])
        have hrest := ih hhigh (fun hnull => by omega)
        rw [writeNat, if_neg hlast, List.cons_append, readFrom, if_neg hlarge, hrest, hbyte]
        change Except.ok (n % 128 + 128 - 128 + 128 * (n / 128), rest) = _
        rw [Nat.add_sub_cancel, Nat.mod_add_div]

theorem read_write (n : UInt64) (rest : List UInt8) : read (write n ++ rest) = .ok (n, rest) := by
  have hn : n.toNat < 128 ^ maxBytes := Nat.lt_of_lt_of_le n.toNat_lt (by decide)
  rw [read, write, readFrom_writeNat hn (fun _ => rfl)]
  change Except.ok (UInt64.ofNat n.toNat, rest) = _
  rw [UInt64.ofNat_toNat]

end Varint

theorem readVarint_write (n : UInt64) (rest : List UInt8) :
    readVarint (Varint.write n ++ rest) = .ok (n, rest) := by
  rw [readVarint, Varint.read_write]

/-! Hashes -/

/-- A hash is read back from its bytes. -/
theorem ofBytes?_toBytes {hash : Multihash} (hdigest : hash.digest.length ≤ maxDigest) :
    Multihash.ofBytes? (Multihash.toBytes hash) = some hash := by
  have hsize : (UInt64.ofNat hash.digest.length).toNat = hash.digest.length :=
    UInt64.toNat_ofNat_of_lt' (Nat.lt_of_le_of_lt hdigest (by decide))
  rw [Multihash.toBytes, List.append_assoc, Multihash.ofBytes?, Varint.read_write]
  simp only [Varint.read_write, hsize, List.take_length]
  exact if_pos ⟨hdigest, Nat.le_refl _⟩

theorem length_digest_le {bytes : List UInt8} {hash : Multihash} (h : Multihash.ofBytes? bytes = some hash) :
    hash.digest.length ≤ maxDigest := by
  unfold Multihash.ofBytes? at h
  split at h
  · cases h
  · split at h
    · cases h
    · split at h
      · rename_i hbounds
        cases h
        exact Nat.le_trans (List.length_take_le _ _) hbounds.1
      · cases h

/-! Ids -/

/-- The bytes of an id in version one. -/
def bytesOf (id : ContentId) : List UInt8 :=
  Varint.write 1 ++ Varint.write id.codec ++ Multihash.toBytes id.hash

/-- An id of version one is read back from its bytes. -/
theorem ofBytes_bytesOf {id : ContentId} (hversion : id.version = .one)
    (hdigest : id.hash.digest.length ≤ maxDigest) : ofBytes (bytesOf id) = .ok id := by
  obtain ⟨version, codec, hash⟩ := id
  obtain rfl : version = .one := hversion
  have hhash := ofBytes?_toBytes hdigest
  have hbare : ¬ ((1 : UInt64) = sha256Code ∧ codec.toNat = sha256Size) := fun h => absurd h.1 (by decide)
  unfold ofBytes
  simp only [bytesOf, List.append_assoc, readVarint_write, bind, Except.bind, if_neg hbare]
  simp [hhash]
  rfl

/-- What bytes hold that an id is read from: the start of a bare hash and its digest, or the version, a codec
and a hash. -/
theorem ofBytes_cases {bytes : List UInt8} {id : ContentId} (h : ofBytes bytes = .ok id) :
    ∃ version codec first rest,
      readVarint bytes = .ok (version, first) ∧ readVarint first = .ok (codec, rest) ∧
      ((version = sha256Code ∧ codec.toNat = sha256Size ∧ sha256Size ≤ rest.length ∧
          id = ⟨.zero, treeCodec, ⟨sha256Code, rest.take sha256Size⟩⟩) ∨
        (version = 1 ∧ ∃ hash, Multihash.ofBytes? rest = some hash ∧ id = ⟨.one, codec, hash⟩)) := by
  unfold ofBytes at h
  cases hversion : readVarint bytes with
  | error fault => simp [hversion, bind, Except.bind] at h
  | ok read =>
      obtain ⟨version, first⟩ := read
      cases hcodec : readVarint first with
      | error fault => simp [hversion, hcodec, bind, Except.bind] at h
      | ok read =>
          obtain ⟨codec, rest⟩ := read
          refine ⟨version, codec, first, rest, rfl, hcodec, ?_⟩
          simp only [hversion, hcodec, bind, Except.bind] at h
          split at h
          · rename_i hbare
            split at h
            · cases h
            · rename_i hlong
              cases h
              exact Or.inl ⟨hbare.1, hbare.2, Nat.le_of_not_lt hlong, rfl⟩
          · split at h
            · cases h
            · split at h
              · cases h
              · rename_i hone
                cases hhash : Multihash.ofBytes? rest with
                | none => simp [hhash, throw, throwThe, MonadExceptOf.throw] at h
                | some hash =>
                    rw [hhash] at h
                    cases h
                    exact Or.inr ⟨not_not.mp hone, hash, rfl, rfl⟩

/-- Every id that is read has a digest that fits. -/
theorem length_digest_le_of_ofBytes {bytes : List UInt8} {id : ContentId} (h : ofBytes bytes = .ok id) :
    id.hash.digest.length ≤ maxDigest := by
  obtain ⟨_, _, _, rest, -, -, ⟨-, -, -, rfl⟩ | ⟨-, hash, hhash, rfl⟩⟩ := ofBytes_cases h
  · exact Nat.le_trans (List.length_take_le _ _) (by decide)
  · exact length_digest_le hhash

/-! Texts -/

/-- A text without a slash is no path. -/
theorem afterPath_of_not_mem {cs : List Char} (hcs : '/' ∉ cs) (whole : List Char) :
    afterPath whole cs = whole := by
  induction cs with
  | nil => rfl
  | cons c cs ih =>
      obtain ⟨hc, hcs⟩ := List.ne_and_not_mem_of_not_mem_cons hcs
      have hpath : "/ipfs/".toList.isPrefixOf (c :: cs) = false := by
        change ('/' == c && _) = false
        simp [hc]
      rw [afterPath, hpath]
      exact ih hcs

/-- A text has as many bytes as characters at least. -/
theorem length_le_utf8ByteSize (cs : List Char) : cs.length ≤ (String.ofList cs).utf8ByteSize := by
  rw [String.utf8ByteSize_ofList]
  induction cs with
  | nil => exact Nat.le_refl 0
  | cons c cs ih =>
      have hsize := c.utf8Size_pos
      rw [List.length_cons, String.utf8Len_cons]
      omega

theorem isBareHash_encodeBase32 (bytes : List UInt8) :
    isBareHash (Multibase.encodeBase32 bytes) = false := rfl

/-- The text of bytes in base 32 stands for them: it is long enough, no path and no bare hash. -/
theorem parse_encodeBase32 {bytes : List UInt8} (hbytes : bytes ≠ []) :
    parse (String.ofList (Multibase.encodeBase32 bytes)) = ofBytes bytes := by
  have hslash : '/' ∉ Multibase.encodeBase32 bytes := by
    intro hmem
    have hsymbol := Multibase.mem_base32_of_mem_encodeBase32 hmem
    revert hsymbol
    decide
  have hlong : ¬ (String.ofList (Multibase.encodeBase32 bytes)).utf8ByteSize < 2 := by
    have hsize := length_le_utf8ByteSize (Multibase.encodeBase32 bytes)
    have hcount := Multibase.length_regroup 5 bytes
    have hpos := List.length_pos_of_ne_nil hbytes
    rw [Multibase.encodeBase32, List.length_cons, List.length_map] at hsize
    rw [Multibase.encodeBase32]
    omega
  unfold parse
  simp only [String.toList_ofList, afterPath_of_not_mem hslash, if_neg hlong, isBareHash_encodeBase32,
    Multibase.decode?_encodeBase32]
  rfl

/-- An id of version one is read back from its text. -/
theorem parse_render {id : ContentId} (hversion : id.version = .one)
    (hdigest : id.hash.digest.length ≤ maxDigest) : parse id.render = .ok id := by
  have hbytes : bytesOf id ≠ [] := by
    intro hnil
    have hread := ofBytes_bytesOf hversion hdigest
    rw [hnil] at hread
    cases hread
  exact (parse_encodeBase32 hbytes).trans (ofBytes_bytesOf hversion hdigest)

/-! Raw keys -/

/-- A text that is accepted stands for the bytes of its id. -/
theorem exists_bytes_of_parse {text : String} {id : ContentId} (h : parse text = .ok id) :
    ∃ bytes, ofBytes bytes = .ok id := by
  unfold parse at h
  simp only [bind, Except.bind] at h
  split at h
  · cases h
  · split at h
    · exact ⟨_, h⟩
    · cases h

theorem rawKey_eq_ok_iff {text key : String} :
    rawKey text = .ok key ↔ ∃ id, parse text = .ok id ∧ id.raw.render = key := by
  unfold rawKey
  cases parse text with
  | error fault => simp [bind, Except.bind]
  | ok id => simp [bind, Except.bind, pure, Except.pure]

/-- A raw key denotes the raw id of the hash that it is the key of. -/
theorem parse_render_raw {text : String} {id : ContentId} (h : parse text = .ok id) :
    parse id.raw.render = .ok id.raw := by
  obtain ⟨bytes, hbytes⟩ := exists_bytes_of_parse h
  have hdigest : id.hash.digest.length ≤ maxDigest := length_digest_le_of_ofBytes hbytes
  exact @parse_render id.raw rfl hdigest

/-- Raw keys of the same hash are the same, and raw keys of different ones differ. -/
theorem render_raw_inj {text text' : String} {id id' : ContentId} (h : parse text = .ok id)
    (h' : parse text' = .ok id') : id.raw.render = id'.raw.render ↔ id.hash = id'.hash := by
  constructor
  · intro hkeys
    have hraw : (.ok id.raw : Except Fault ContentId) = .ok id'.raw := by
      rw [← parse_render_raw h, ← parse_render_raw h', hkeys]
    have hid : id.raw = id'.raw := Except.ok.inj hraw
    exact (mk.inj hid).2.2
  · intro hhash
    rw [raw, raw, hhash]

/-- The raw key is a canonical text of the hash. The raw key of any text that is accepted is accepted in turn.
It denotes the id of version one for bytes without structure, with the same hash function and digest, and is
its own raw key. Two texts have the same raw key exactly if their ids have the same hash function and the same
digest. -/
theorem rawKey_canonical :
    (∀ text key, rawKey text = .ok key →
      ∃ id, parse text = .ok id ∧ parse key = .ok ⟨.one, 0x55, ⟨id.hash.code, id.hash.digest⟩⟩ ∧
        rawKey key = .ok key) ∧
    ∀ text text' key key' id id', rawKey text = .ok key → rawKey text' = .ok key' →
      parse text = .ok id → parse text' = .ok id' →
      (key = key' ↔ id.hash.code = id'.hash.code ∧ id.hash.digest = id'.hash.digest) := by
  constructor
  · intro text key h
    obtain ⟨id, hid, rfl⟩ := rawKey_eq_ok_iff.mp h
    have hkey := parse_render_raw hid
    exact ⟨id, hid, hkey, rawKey_eq_ok_iff.mpr ⟨id.raw, hkey, rfl⟩⟩
  · intro text text' key key' id id' h h' hid hid'
    obtain ⟨_, hread, rfl⟩ := rawKey_eq_ok_iff.mp h
    obtain ⟨_, hread', rfl⟩ := rawKey_eq_ok_iff.mp h'
    cases hread.symm.trans hid
    cases hread'.symm.trans hid'
    rw [render_raw_inj hid hid', Multihash.mk.injEq]

/-- A tree as a bare hash, as a path in version one, and its raw key. -/
def bareTree : String := "QmPrRV2DJHJCneS6Xyjg4y1FkoGidzAbSQxkwjcXi5rpiu"

def treePath : String := "/ipfs/f01701220167c282eb26477f3c3bf3659b1e8e04a48611ef23b6e583f4b57abe72487c4a2"

def treeKey : String := "bafkreiawpquc5mteo7z4hpzwlgy6ryckjbqr54r3nzmd6s2xvptsjb6eui"

/-- Both texts of the tree meet in its raw key, and empty content does not. -/
theorem treeKey_canonical :
    rawKey bareTree = .ok treeKey ∧ rawKey treePath = .ok treeKey ∧ rawKey "f01550000" = .ok "bafkqaaa" ∧
      rawKey treeKey = .ok treeKey ∧
      ∃ bare path empty, parse bareTree = .ok bare ∧ parse treePath = .ok path ∧
        parse "f01550000" = .ok empty ∧
        (bare.hash.code = path.hash.code ∧ bare.hash.digest = path.hash.digest) ∧
        ¬ (bare.hash.code = empty.hash.code ∧ bare.hash.digest = empty.hash.digest) := by
  have hbare : rawKey bareTree = .ok treeKey := by decide +kernel
  have hpath : rawKey treePath = .ok treeKey := by decide +kernel
  have hempty : rawKey "f01550000" = .ok "bafkqaaa" := by decide +kernel
  obtain ⟨hkeys, hsame⟩ := rawKey_canonical
  obtain ⟨bare, hreadBare, -, hown⟩ := hkeys _ _ hbare
  obtain ⟨path, hreadPath, -⟩ := hkeys _ _ hpath
  obtain ⟨empty, hreadEmpty, -⟩ := hkeys _ _ hempty
  refine ⟨hbare, hpath, hempty, hown, bare, path, empty, hreadBare, hreadPath, hreadEmpty, ?_, ?_⟩
  · exact (hsame _ _ _ _ _ _ hbare hpath hreadBare hreadPath).mp rfl
  · intro hagree
    have hkey := (hsame _ _ _ _ _ _ hbare hempty hreadBare hreadEmpty).mpr hagree
    revert hkey
    decide

end ContentProbe.ContentId
