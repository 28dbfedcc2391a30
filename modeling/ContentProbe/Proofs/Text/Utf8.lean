import ContentProbe.Proofs.Text.Ordering

/-!
UTF-8 read back. The reader knows from the first byte of a character how many follow, and puts its number together
from them, so that the bytes of a text are read as that text.
-/

namespace ContentProbe.Text

theorem isTail_iff {b low high : UInt8} :
    isTail b low high = true ↔ low.toNat ≤ b.toNat ∧ b.toNat ≤ high.toNat := by
  rw [isTail, Bool.and_eq_true, decide_eq_true_iff, decide_eq_true_iff, UInt8.le_iff_toNat_le,
    UInt8.le_iff_toNat_le]

theorem not_lt_ascii {b : UInt8} (h : 0x80 ≤ b.toNat) : ¬b < 0x80 := fun hlt =>
  Nat.not_lt.mpr h (UInt8.lt_iff_toNat_lt.mp hlt)

/-- The byte continues a character. -/
def Continues (b : UInt8) : Prop := 0x80 ≤ b.toNat ∧ b.toNat ≤ 0xbf

theorem Continues.isTail {b : UInt8} (h : Continues b) : isTail b 0x80 0xbf = true := isTail_iff.mpr h

/-- The second byte of a character has tighter bounds behind the smallest and the largest first byte. -/
theorem Continues.isTail_second {b x least most low high : UInt8} (hx : Continues x)
    (hlow : b = least → low.toNat ≤ x.toNat) (hhigh : b = most → x.toNat ≤ high.toNat) :
    Text.isTail x (if b == least then low else 0x80) (if b == most then high else 0xbf) = true := by
  refine isTail_iff.mpr ⟨?_, ?_⟩
  · split_ifs with h
    · exact hlow (beq_iff_eq.mp h)
    · exact hx.1
  · split_ifs with h
    · exact hhigh (beq_iff_eq.mp h)
    · exact hx.2

/-! Characters of one to four bytes -/

theorem utf8Head_one {b : UInt8} (hb : b.toNat < 0x80) (rest : List UInt8) :
    utf8Head b rest = .char (Char.ofNat b.toNat) 1 :=
  if_pos (UInt8.lt_iff_toNat_lt.mpr hb)

theorem utf8Head_two {b x : UInt8} (hb : 0xc2 ≤ b.toNat ∧ b.toNat ≤ 0xdf) (hx : Continues x)
    (rest : List UInt8) :
    utf8Head b (x :: rest) = .char (Char.ofNat (b.toNat % 32 * 64 + x.toNat % 64)) 2 := by
  have htwo : (0xc2 ≤ b && b ≤ 0xdf) = true := isTail_iff.mpr hb
  simp only [utf8Head]
  rw [if_neg (not_lt_ascii (by omega)), if_pos htwo, if_pos hx.isTail]

theorem utf8Head_three {b x y : UInt8} (hb : 0xe0 ≤ b.toNat ∧ b.toNat ≤ 0xef) (hx : Continues x)
    (hlow : b = 0xe0 → 0xa0 ≤ x.toNat) (hhigh : b = 0xed → x.toNat ≤ 0x9f) (hy : Continues y)
    (rest : List UInt8) :
    utf8Head b (x :: y :: rest) =
      .char (Char.ofNat ((b.toNat % 16 * 64 + x.toNat % 64) * 64 + y.toNat % 64)) 3 := by
  have htwo : ¬(0xc2 ≤ b && b ≤ 0xdf) = true := fun h => by
    have hle : b.toNat ≤ 0xdf := (isTail_iff.mp h).2
    omega
  have hthree : (0xe0 ≤ b && b ≤ 0xef) = true := isTail_iff.mpr hb
  have hrange : isTail x (if b == 0xe0 then 0xa0 else 0x80) (if b == 0xed then 0x9f else 0xbf) = true :=
    hx.isTail_second hlow hhigh
  simp only [utf8Head]
  rw [if_neg (not_lt_ascii (by omega)), if_neg htwo, if_pos hthree, hrange, hy.isTail]
  rfl

theorem utf8Head_four {b x y z : UInt8} (hb : 0xf0 ≤ b.toNat ∧ b.toNat ≤ 0xf4) (hx : Continues x)
    (hlow : b = 0xf0 → 0x90 ≤ x.toNat) (hhigh : b = 0xf4 → x.toNat ≤ 0x8f) (hy : Continues y)
    (hz : Continues z) (rest : List UInt8) :
    utf8Head b (x :: y :: z :: rest) =
      .char (Char.ofNat (((b.toNat % 8 * 64 + x.toNat % 64) * 64 + y.toNat % 64) * 64 + z.toNat % 64)) 4 := by
  have htwo : ¬(0xc2 ≤ b && b ≤ 0xdf) = true := fun h => by
    have hle : b.toNat ≤ 0xdf := (isTail_iff.mp h).2
    omega
  have hthree : ¬(0xe0 ≤ b && b ≤ 0xef) = true := fun h => by
    have hle : b.toNat ≤ 0xef := (isTail_iff.mp h).2
    omega
  have hfour : (0xf0 ≤ b && b ≤ 0xf4) = true := isTail_iff.mpr hb
  have hrange : isTail x (if b == 0xf0 then 0x90 else 0x80) (if b == 0xf4 then 0x8f else 0xbf) = true :=
    hx.isTail_second hlow hhigh
  simp only [utf8Head]
  rw [if_neg (not_lt_ascii (by omega)), if_neg htwo, if_neg hthree, if_pos hfour, hrange, hy.isTail, hz.isTail]
  rfl

/-! Texts -/

/-- The first byte of a character and those after it. -/
theorem utf8Head_encode (c : Char) : ∃ b tail, String.utf8EncodeChar c = b :: tail ∧
    ∀ rest, utf8Head b (tail ++ rest) = .char c (tail.length + 1) := by
  have hbound := toNat_val_lt c
  have hc : Char.ofNat c.val.toNat = c := Char.ofNat_toNat c
  have hvalid : c.val.toNat < 0xd800 ∨ 0xdfff < c.val.toNat := by
    have hc := c.valid
    simp only [UInt32.isValidChar, Nat.isValidChar] at hc
    omega
  unfold String.utf8EncodeChar
  generalize c.val.toNat = n at *
  have hbyte {k : Nat} (hk : k < 256) : (UInt8.ofNat k).toNat = k := UInt8.toNat_ofNat_of_lt' hk
  have htail (k : Nat) : Continues (UInt8.ofNat (k % 64 + 128)) := by
    rw [Continues, hbyte (by omega)]
    omega
  dsimp only
  split_ifs with hone htwo hthree
  · refine ⟨_, _, rfl, fun rest => ?_⟩
    have hb := hbyte (k := n) (by omega)
    rw [utf8Head_one (by omega), hb, hc]
    rfl
  · refine ⟨_, _, rfl, fun rest => ?_⟩
    have hb := hbyte (k := n / 64 % 32 + 192) (by omega)
    have hx := hbyte (k := n % 64 + 128) (by omega)
    have hvalue : (n / 64 % 32 + 192) % 32 * 64 + (n % 64 + 128) % 64 = n := by omega
    rw [List.cons_append, utf8Head_two (by omega) (htail n), hb, hx, hvalue, hc]
    rfl
  · refine ⟨_, _, rfl, fun rest => ?_⟩
    have hb := hbyte (k := n / 4096 % 16 + 224) (by omega)
    have hx := hbyte (k := n / 64 % 64 + 128) (by omega)
    have hy := hbyte (k := n % 64 + 128) (by omega)
    have hlow (h : UInt8.ofNat (n / 4096 % 16 + 224) = 0xe0) : 0xa0 ≤ n / 64 % 64 + 128 := by
      have hfirst : n / 4096 % 16 + 224 = 224 := hb.symm.trans (congrArg UInt8.toNat h)
      omega
    have hhigh (h : UInt8.ofNat (n / 4096 % 16 + 224) = 0xed) : n / 64 % 64 + 128 ≤ 0x9f := by
      have hfirst : n / 4096 % 16 + 224 = 237 := hb.symm.trans (congrArg UInt8.toNat h)
      omega
    have hvalue : ((n / 4096 % 16 + 224) % 16 * 64 + (n / 64 % 64 + 128) % 64) * 64 + (n % 64 + 128) % 64 = n := by
      omega
    rw [List.cons_append, List.cons_append,
      utf8Head_three (by omega) (htail _) (by rwa [hx]) (by rwa [hx]) (htail n), hb, hx, hy, hvalue, hc]
    rfl
  · refine ⟨_, _, rfl, fun rest => ?_⟩
    have hb := hbyte (k := n / 262144 % 8 + 240) (by omega)
    have hx := hbyte (k := n / 4096 % 64 + 128) (by omega)
    have hy := hbyte (k := n / 64 % 64 + 128) (by omega)
    have hz := hbyte (k := n % 64 + 128) (by omega)
    have hlow (h : UInt8.ofNat (n / 262144 % 8 + 240) = 0xf0) : 0x90 ≤ n / 4096 % 64 + 128 := by
      have hfirst : n / 262144 % 8 + 240 = 240 := hb.symm.trans (congrArg UInt8.toNat h)
      omega
    have hhigh (h : UInt8.ofNat (n / 262144 % 8 + 240) = 0xf4) : n / 4096 % 64 + 128 ≤ 0x8f := by
      have hfirst : n / 262144 % 8 + 240 = 244 := hb.symm.trans (congrArg UInt8.toNat h)
      omega
    have hvalue : (((n / 262144 % 8 + 240) % 8 * 64 + (n / 4096 % 64 + 128) % 64) * 64 +
        (n / 64 % 64 + 128) % 64) * 64 + (n % 64 + 128) % 64 = n := by
      omega
    rw [List.cons_append, List.cons_append, List.cons_append,
      utf8Head_four (by omega) (htail _) (by rwa [hx]) (by rwa [hx]) (htail _) (htail n), hb, hx, hy, hz, hvalue,
      hc]
    rfl

/-- The bytes that a character took are passed over. -/
theorem utf8Symbols_skip (bytes rest : List UInt8) :
    utf8Symbols bytes.length (bytes ++ rest) = utf8Symbols 0 rest := by
  induction bytes with
  | nil => rfl
  | cons b bytes ih => exact ih

theorem utf8Symbols_encode (cs : List Char) : utf8Symbols 0 (cs.flatMap String.utf8EncodeChar) = cs.map some := by
  induction cs with
  | nil => rfl
  | cons c cs ih =>
      obtain ⟨b, bytes, hbytes, hhead⟩ := utf8Head_encode c
      rw [List.flatMap_cons, hbytes, List.cons_append, utf8Symbols, hhead]
      simp only [Nat.add_sub_cancel]
      rw [utf8Symbols_skip, ih, List.map_cons]

/-- The bytes of a text are read as its characters, and no stretch of them is malformed. -/
theorem utf8Symbols_utf8Bytes (s : String) : utf8Symbols 0 (utf8Bytes s) = s.toList.map some := by
  have hbytes : utf8Bytes s = s.toList.flatMap String.utf8EncodeChar := by
    rw [← utf8Bytes_ofList, String.ofList_toList]
  rw [hbytes, utf8Symbols_encode]

theorem utf8Lossy_utf8Bytes (s : String) : utf8Lossy (utf8Bytes s) = s := by
  rw [utf8Lossy, utf8Symbols_utf8Bytes, List.map_map]
  exact (congrArg String.ofList (List.map_id _)).trans String.ofList_toList

end ContentProbe.Text
