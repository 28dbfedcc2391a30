import ContentProbe.Proofs.Text.Digits
import ContentProbe.Trace.Ids

/-!
Ids are determined by the numbers that they are and by the bytes that carry them.
-/

namespace ContentProbe

open ContentProbe.Text

theorem TraceId.eq_of_toNat_eq {t u : TraceId} (h : t.toNat = u.toNat) : t = u := by
  obtain ⟨v⟩ := t
  obtain ⟨w⟩ := u
  exact congrArg TraceId.mk (BitVec.eq_of_toNat_eq h)

theorem SpanId.eq_of_toNat_eq {s r : SpanId} (h : s.toNat = r.toNat) : s = r := by
  obtain ⟨v⟩ := s
  obtain ⟨w⟩ := r
  exact congrArg SpanId.mk (BitVec.eq_of_toNat_eq h)

/-- A trace id is carried by the very bytes that it was read from. -/
theorem TraceId.toBytes_of_ofBytes? {bytes : List UInt8} {t : TraceId} (h : ofBytes? bytes = some t) :
    t.toBytes = bytes := by
  unfold ofBytes? at h
  split at h
  · rename_i hlength
    obtain rfl := Option.some.inj h
    have hlt : natOfBytes bytes < 2 ^ 128 := by
      have := natOfBytes_lt bytes
      rw [hlength] at this
      exact this.trans_eq (by norm_num)
    have hnat : (ofNat (natOfBytes bytes)).toNat = natOfBytes bytes := by
      rw [ofNat, toNat, BitVec.toNat_ofNat, Nat.mod_eq_of_lt hlt]
    rw [toBytes, hnat, ← hlength, bytesOfNat_natOfBytes]
  · cases h

/-- The eight bytes that carry a span id. -/
def SpanId.toBytes (s : SpanId) : List UInt8 := bytesOfNat 8 s.toNat

theorem natOfBytes_lt_two_pow {bytes : List UInt8} {size : Nat} (h : bytes.length = size) :
    natOfBytes bytes < 2 ^ (8 * size) := by
  rw [pow_mul, ← h]
  exact natOfBytes_lt bytes

theorem TraceId.toNat_ofNat_natOfBytes {bytes : List UInt8} (h : bytes.length = 16) :
    (ofNat (natOfBytes bytes)).toNat = natOfBytes bytes := by
  rw [ofNat, toNat, BitVec.toNat_ofNat, Nat.mod_eq_of_lt (natOfBytes_lt_two_pow h)]

theorem SpanId.toNat_ofNat_natOfBytes {bytes : List UInt8} (h : bytes.length = 8) :
    (ofNat (natOfBytes bytes)).toNat = natOfBytes bytes := by
  rw [ofNat, toNat, BitVec.toNat_ofNat, Nat.mod_eq_of_lt (natOfBytes_lt_two_pow h)]

theorem SpanId.toBytes_ofNat_natOfBytes {bytes : List UInt8} (h : bytes.length = 8) :
    (ofNat (natOfBytes bytes)).toBytes = bytes := by
  rw [toBytes, toNat_ofNat_natOfBytes h, ← h, bytesOfNat_natOfBytes]

theorem SpanId.toBytes_of_ofBytes? {bytes : List UInt8} {s : SpanId} (h : ofBytes? bytes = some s) :
    s.toBytes = bytes := by
  unfold ofBytes? at h
  split at h
  · rename_i hlength
    rw [← Option.some.inj h, toBytes_ofNat_natOfBytes hlength]
  · cases h

/-- The bytes of a trace that is not zero. -/
theorem TraceId.isSome_nonzero_iff {bytes : List UInt8} :
    ((ofBytes? bytes).filter (!·.isZero)).isSome = true ↔ bytes.length = 16 ∧ ∃ b ∈ bytes, b ≠ 0 := by
  unfold ofBytes?
  split
  · rename_i hlength
    have hzero : natOfBytes bytes = 0 ↔ ∀ b ∈ bytes, b = 0 := natOfBytes_eq_zero_iff
    simp [isZero, toNat_ofNat_natOfBytes hlength, hzero, hlength]
  · rename_i hlength
    simp [hlength]

/-- The bytes of a span id that is not zero. -/
theorem SpanId.isSome_nonzero_iff {bytes : List UInt8} :
    ((ofBytes? bytes).filter (!·.isZero)).isSome = true ↔ bytes.length = 8 ∧ ∃ b ∈ bytes, b ≠ 0 := by
  unfold ofBytes?
  split
  · rename_i hlength
    have hzero : natOfBytes bytes = 0 ↔ ∀ b ∈ bytes, b = 0 := natOfBytes_eq_zero_iff
    simp [isZero, toNat_ofNat_natOfBytes hlength, hzero, hlength]
  · rename_i hlength
    simp [hlength]

end ContentProbe
