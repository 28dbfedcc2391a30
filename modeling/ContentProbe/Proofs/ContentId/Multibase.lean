import ContentProbe.ContentId.Multibase
import ContentProbe.Proofs.Text.Reading

/-!
Bytes as groups of bits, and the base 32 text of bytes. Groups of at most eight bits give back the bytes they
were made of: the groups are the digits of the bytes as one number, with fewer zero bits at the end than a
group has, which is what reading asks for.
-/

namespace ContentProbe.ContentId.Multibase

open ContentProbe.Text

/-! Groups of bits -/

/-- The fewest groups that hold some bits exceed them by less than a group. -/
theorem bits_of_groups {bits : Nat} (hpos : 0 < bits) (n : Nat) :
    n ≤ bits * ((n + bits - 1) / bits) ∧ bits * ((n + bits - 1) / bits) < n + bits := by
  have hdivision := Nat.div_add_mod (n + bits - 1) bits
  have hrest := Nat.mod_lt (n + bits - 1) hpos
  omega

theorem length_regroup (bits : Nat) (bytes : List UInt8) :
    (regroup bits bytes).length = (8 * bytes.length + bits - 1) / bits :=
  length_digitsFixed _ _ _

theorem lt_of_mem_regroup {bits : Nat} {bytes : List UInt8} {d : Nat} (hd : d ∈ regroup bits bytes) :
    d < 2 ^ bits :=
  lt_of_mem_digitsFixed (Nat.two_pow_pos bits) hd

/-- The groups of bytes denote the bytes and the zero bits at the end. -/
theorem ofDigits_regroup {bits : Nat} (hpos : 0 < bits) (bytes : List UInt8) :
    ofDigits (2 ^ bits) (regroup bits bytes) =
      natOfBytes bytes * 2 ^ (bits * (regroup bits bytes).length - 8 * bytes.length) := by
  obtain ⟨hlower, -⟩ := bits_of_groups hpos (8 * bytes.length)
  rw [← length_regroup bits bytes] at hlower
  have hbytes : natOfBytes bytes < 2 ^ (8 * bytes.length) := by
    rw [pow_mul]
    exact natOfBytes_lt bytes
  have hvalue : natOfBytes bytes * 2 ^ (bits * (regroup bits bytes).length - 8 * bytes.length) <
      (2 ^ bits) ^ (regroup bits bytes).length := by
    rw [← pow_mul, ← Nat.pow_sub_mul_pow 2 hlower, Nat.mul_comm]
    exact Nat.mul_lt_mul_of_pos_left hbytes (Nat.two_pow_pos _)
  rw [length_regroup] at hvalue ⊢
  exact (ofDigits_digitsFixed _ _ _).trans (Nat.mod_eq_of_lt hvalue)

/-- Groups of bits give back the bytes they were made of. -/
theorem ungroup?_regroup {bits : Nat} (hpos : 0 < bits) (hbits : bits ≤ 8) (bytes : List UInt8) :
    ungroup? bits (regroup bits bytes) = some bytes := by
  obtain ⟨hlower, hupper⟩ := bits_of_groups hpos (8 * bytes.length)
  rw [← length_regroup bits bytes] at hlower hupper
  have hvalue := ofDigits_regroup hpos bytes
  generalize hcount : bits * (regroup bits bytes).length = total at hlower hupper hvalue
  have hsize : total / 8 = bytes.length := by omega
  have hspare : total % 8 = total - 8 * bytes.length := by omega
  have hfew : total - 8 * bytes.length < bits := by omega
  have hquotient : natOfBytes bytes * 2 ^ (total - 8 * bytes.length) / 2 ^ (total - 8 * bytes.length) =
      natOfBytes bytes :=
    Nat.mul_div_cancel _ (Nat.two_pow_pos _)
  unfold ungroup?
  simp only [hcount, hsize, hspare, Nat.pow_eq, hvalue, hquotient, Nat.mul_mod_left, bytesOfNat_natOfBytes]
  exact if_pos ⟨hfew, trivial⟩

/-! The base 32 text -/

theorem mem_base32_of_lt {d : Nat} (hd : d < 32) : symbolAt base32.toList d ∈ base32.toList := by
  have hall : ∀ d < 32, symbolAt base32.toList d ∈ base32.toList := by decide
  exact hall d hd

theorem position?_symbolAt {d : Nat} (hd : d < 32) :
    position? base32.toList (symbolAt base32.toList d) = some d := by
  have hall : ∀ d < 32, position? base32.toList (symbolAt base32.toList d) = some d := by decide
  exact hall d hd

/-- The symbols have no upper case. -/
theorem lowered_of_mem_base32 {c : Char} (hc : c ∈ base32.toList) : lowered c = c := by
  have hall : base32.toList.map lowered = base32.toList.map id := by decide
  exact List.map_inj_left.mp hall c hc

/-- A text of base 32 has symbols only, its first character included. -/
theorem mem_base32_of_mem_encodeBase32 {bytes : List UInt8} {c : Char} (hc : c ∈ encodeBase32 bytes) :
    c ∈ base32.toList := by
  rcases List.mem_cons.mp hc with rfl | hc
  · decide
  · obtain ⟨d, hd, rfl⟩ := List.mem_map.mp hc
    exact mem_base32_of_lt (lt_of_mem_regroup hd)

theorem map_lowered {cs : List Char} (hcs : ∀ c ∈ cs, c ∈ base32.toList) : cs.map lowered = cs :=
  (List.map_congr_left fun c hc => lowered_of_mem_base32 (hcs c hc)).trans (List.map_id cs)

/-- The base 32 text of bytes is read back. -/
theorem decode?_encodeBase32 (bytes : List UInt8) : decode? (encodeBase32 bytes) = some bytes := by
  have hsymbols : ∀ c ∈ (regroup 5 bytes).map (symbolAt base32.toList), c ∈ base32.toList :=
    fun c hc => mem_base32_of_mem_encodeBase32 (List.mem_cons_of_mem 'b' hc)
  have hpositions := mapM_map_eq_some fun d (hd : d ∈ regroup 5 bytes) => position?_symbolAt (lt_of_mem_regroup hd)
  change decodeGroups? 5 base32.toList (((regroup 5 bytes).map (symbolAt base32.toList)).map lowered) = _
  rw [map_lowered hsymbols, decodeGroups?, hpositions]
  exact ungroup?_regroup (by omega) (by omega) bytes

end ContentProbe.ContentId.Multibase
