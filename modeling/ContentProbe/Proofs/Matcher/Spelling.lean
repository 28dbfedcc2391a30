import ContentProbe.Matcher.Codec
import ContentProbe.Proofs.Text.Denotation
import ContentProbe.Proofs.Trace.Ids
import Mathlib.Data.String.Basic

/-!
Spellings of trace ids. Those that are read are 32 hexadecimal digits, or 31 behind a plus sign; a text of another
length is told apart from one that is malformed. Every trace id, zero included, is read back from its digits.
-/

namespace ContentProbe.Matcher

open ContentProbe.Text

/-- Exactly 32 hexadecimal digits, which denote the id. -/
def IsHexSpelling (spelling : String) (t : TraceId) : Prop :=
  spelling.length = 32 ∧ Denotes 16 spelling.toList t.toNat

/-- A plus sign and 31 hexadecimal digits. -/
def IsSignedSpelling (spelling : String) (t : TraceId) : Prop :=
  ∃ digits, spelling.toList = '+' :: digits ∧ digits.length = 31 ∧ Denotes 16 digits t.toNat

/-! Digits and bytes -/

theorem readHex?_eq_some_iff {cs : List Char} {n : Nat} :
    readHex? cs = some n ↔ unsigned cs ≠ [] ∧ Denotes 16 (unsigned cs) n := by
  have hread : readHex? cs =
      if (unsigned cs).isEmpty then none else ((unsigned cs).mapM hexDigit?).map (ofDigits 16) := rfl
  rw [hread, readWith_eq_some_iff fun _ _ => hexDigit?_eq_some_iff]

theorem utf8Size_of_digitOf {base : Nat} {c : Char} {d : Nat} (h : DigitOf base c d) : c.utf8Size = 1 := by
  have hlower : lowerDigits.all (·.utf8Size == 1) = true := by decide
  have hupper : upperDigits.all (·.utf8Size == 1) = true := by decide
  obtain ⟨-, hc | hc⟩ := h
  · exact beq_iff_eq.mp (List.all_eq_true.mp hlower c (List.mem_of_getElem? hc))
  · exact beq_iff_eq.mp (List.all_eq_true.mp hupper c (List.mem_of_getElem? hc))

/-- Digits take one byte each. -/
theorem utf8Len_of_denotes {base : Nat} {cs : List Char} {n : Nat} (h : Denotes base cs n) :
    String.utf8Len cs = cs.length := by
  obtain ⟨ds, hds, -⟩ := h
  induction hds with
  | nil => rfl
  | cons hc _ ih => rw [String.utf8Len_cons, ih, utf8Size_of_digitOf hc, List.length_cons]

theorem utf8Len_of_signed {base : Nat} {digits : List Char} {n : Nat} (h : Denotes base digits n) :
    String.utf8Len ('+' :: digits) = digits.length + 1 := by
  have hplus : '+'.utf8Size = 1 := by decide
  rw [String.utf8Len_cons, utf8Len_of_denotes h, hplus]

theorem utf8ByteSize_eq_utf8Len (s : String) : s.utf8ByteSize = String.utf8Len s.toList := by
  rw [← String.utf8ByteSize_ofList, String.ofList_toList]

theorem toNat_ofNat_of_lt {n : Nat} (h : n < 16 ^ 32) : (TraceId.ofNat n).toNat = n := by
  rw [TraceId.ofNat, TraceId.toNat, BitVec.toNat_ofNat]
  exact Nat.mod_eq_of_lt h

theorem ofNat_toNat (t : TraceId) : TraceId.ofNat t.toNat = t :=
  TraceId.eq_of_toNat_eq (toNat_ofNat_of_lt t.word.isLt)

/-! Spellings -/

theorem readTraceId_of_size {spelling : String} (hsize : spelling.utf8ByteSize = 32) {n : Nat}
    (hread : readHex? spelling.toList = some n) : readTraceId spelling = .ok (.ofNat n) := by
  rw [readTraceId, if_neg (by simp [hsize]), hread]

theorem readTraceId_of_isHexSpelling {spelling : String} {t : TraceId} (h : IsHexSpelling spelling t) :
    readTraceId spelling = .ok t := by
  obtain ⟨hlength, hdenotes⟩ := h
  have hsize : spelling.utf8ByteSize = 32 := by
    rw [utf8ByteSize_eq_utf8Len, utf8Len_of_denotes hdenotes, String.length_toList, hlength]
  have hne : spelling.toList ≠ [] := List.ne_nil_of_length_eq_add_one (String.length_toList.trans hlength)
  have hread : readHex? spelling.toList = some t.toNat :=
    readHex?_eq_some_iff.mpr (unsigned_denotes_iff.mpr (Or.inl ⟨hne, hdenotes⟩))
  rw [readTraceId_of_size hsize hread, ofNat_toNat]

theorem readTraceId_of_isSignedSpelling {spelling : String} {t : TraceId} (h : IsSignedSpelling spelling t) :
    readTraceId spelling = .ok t := by
  obtain ⟨digits, hsplit, hlength, hdenotes⟩ := h
  have hsize : spelling.utf8ByteSize = 32 := by
    rw [utf8ByteSize_eq_utf8Len, hsplit, utf8Len_of_signed hdenotes, hlength]
  have hne : digits ≠ [] := List.ne_nil_of_length_eq_add_one hlength
  have hread : readHex? spelling.toList = some t.toNat :=
    readHex?_eq_some_iff.mpr (unsigned_denotes_iff.mpr (Or.inr ⟨digits, hsplit, hne, hdenotes⟩))
  rw [readTraceId_of_size hsize hread, ofNat_toNat]

/-- The texts that spell a trace id, by what the reader makes of them. -/
theorem readTraceId_eq_ok_iff {spelling : String} {t : TraceId} :
    readTraceId spelling = .ok t ↔ IsHexSpelling spelling t ∨ IsSignedSpelling spelling t := by
  constructor
  · intro h
    unfold readTraceId at h
    split_ifs at h with hsize
    rw [ne_eq, not_not, utf8ByteSize_eq_utf8Len] at hsize
    cases hread : readHex? spelling.toList with
    | none =>
        rw [hread] at h
        cases h
    | some n =>
        rw [hread] at h
        obtain rfl := Except.ok.inj h
        obtain ⟨-, hdenotes⟩ | ⟨digits, hsplit, -, hdenotes⟩ :=
          unsigned_denotes_iff.mp (readHex?_eq_some_iff.mp hread)
        · have hlength : spelling.toList.length = 32 := by rw [← utf8Len_of_denotes hdenotes, hsize]
          have hlt := hdenotes.lt
          rw [hlength] at hlt
          exact Or.inl ⟨String.length_toList.symm.trans hlength, by rwa [toNat_ofNat_of_lt hlt]⟩
        · have hlength : digits.length = 31 := by
            rw [hsplit, utf8Len_of_signed hdenotes] at hsize
            exact Nat.succ.inj hsize
          have hlt : n < 16 ^ 32 := by
            have hshort := hdenotes.lt
            rw [hlength] at hshort
            omega
          exact Or.inr ⟨digits, hsplit, hlength, by rwa [toNat_ofNat_of_lt hlt]⟩
  · rintro (h | h)
    · exact readTraceId_of_isHexSpelling h
    · exact readTraceId_of_isSignedSpelling h

theorem readTraceId_eq_length_iff (spelling : String) :
    readTraceId spelling = .error (.traceIdLength spelling) ↔ spelling.utf8ByteSize ≠ 32 := by
  unfold readTraceId
  split_ifs with hsize
  · exact iff_of_true rfl hsize
  · refine iff_of_false ?_ hsize
    cases readHex? spelling.toList <;> simp

theorem readTraceId_eq_malformed_iff (spelling : String) :
    readTraceId spelling = .error .malformed ↔
      spelling.utf8ByteSize = 32 ∧ ∀ t, readTraceId spelling ≠ .ok t := by
  unfold readTraceId
  split_ifs with hsize
  · simp [hsize]
  · rw [ne_eq, not_not] at hsize
    cases readHex? spelling.toList <;> simp [hsize]

/-- A trace id, zero included, is read back from its digits. -/
theorem readTraceId_hex (t : TraceId) : readTraceId t.hex = .ok t := by
  have hdenotes : Denotes 16 (hexText 32 t.toNat) t.toNat := denotes_hexText t.word.isLt
  have htext : t.hex.toList = hexText 32 t.toNat := String.toList_ofList
  have hlength : t.hex.length = 32 := by rw [← String.length_toList, htext, length_hexText]
  exact readTraceId_of_isHexSpelling ⟨hlength, by rwa [htext]⟩

end ContentProbe.Matcher
