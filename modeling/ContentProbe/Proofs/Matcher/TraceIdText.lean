import ContentProbe.Proofs.Matcher.RoundTrip

/-!
The texts that are read as trace ids of matchers. They are those of 32 hexadecimal digits and, since the reader
of numbers lets a plus sign stand before them, those of a plus sign and 31 digits. Every other text is a fault,
which names the text if it does not take 32 bytes.
-/

namespace ContentProbe.Matcher

open ContentProbe.Text Json

/-- The text of a list with a matcher for a trace id, the id being spelled in some way. -/
def traceIdDocument (spelling : String) : String :=
  compactText (.array [.record [("trace_id", .text spelling)]])

/-! Trace ids in JSON -/

/-- The reader of matchers passes the text of a trace id on, whatever characters it has. -/
theorem read_traceId (spelling : String) (cs : List Char) :
    read (compact (.record [("trace_id", .text spelling)]) ++ cs) =
      (readTraceId spelling).map fun t => (.traceId t, cs) := by
  rw [compact_member, read, expect_cons (by decide)]
  simp only [bind, Except.bind, readText_key, orMalformed, expect_cons (by decide : isSpace ':' = false),
    if_true, Json.text, compact]
  cases readTraceId spelling with
  | error fault => rfl
  | ok t => simp only [pure, Except.pure, expect_cons (by decide : isSpace '}' = false), Except.map]

theorem readMany_traceId (spelling : String) (fuel : Nat) :
    readMany (fuel + 1) (compact (.record [("trace_id", .text spelling)]) ++ [']']) =
      (readTraceId spelling).map fun t => ([.traceId t], []) := by
  rw [readMany, read_traceId]
  cases readTraceId spelling with
  | error fault => rfl
  | ok t => rfl

theorem decode_traceIdDocument (spelling : String) :
    decode (traceIdDocument spelling) = (readTraceId spelling).map fun t => [.traceId t] := by
  have hitems : compactItems [.record [("trace_id", .text spelling)]] =
      compact (.record [("trace_id", .text spelling)]) ++ [']'] := rfl
  have hitem := compact_member "trace_id" (.text spelling) [']']
  rw [decode, traceIdDocument, compactText, String.toList_ofList, compact, expect_cons (by decide), hitems]
  simp only [bind, Except.bind]
  rw [hitem, skipSpace_cons (by decide), ← hitem]
  split
  next heq => exact absurd (List.cons.inj (hitem.symm.trans heq)).1 (by decide)
  next =>
    have hread := readMany_traceId spelling (compact (.record [("trace_id", .text spelling)])).length
    rw [List.length_append, List.length_singleton, hread]
    cases readTraceId spelling with
    | error fault => rfl
    | ok t => rfl

/-- A matcher for a trace id is read exactly if its text is 32 hexadecimal digits, or 31 behind a plus sign, and
is then the one for the number that the digits denote. Any other text is refused: for its length if it does not
take 32 bytes, and otherwise as malformed. -/
theorem trace_id_spellings (spelling : String) :
    (∀ ms, decode (traceIdDocument spelling) = .ok ms ↔
      ∃ t, ms = [.traceId t] ∧ (IsHexSpelling spelling t ∨ IsSignedSpelling spelling t)) ∧
    (decode (traceIdDocument spelling) = .error (.traceIdLength spelling) ↔ spelling.utf8ByteSize ≠ 32) ∧
    (decode (traceIdDocument spelling) = .error .malformed ↔
      spelling.utf8ByteSize = 32 ∧ ∀ t, ¬IsHexSpelling spelling t ∧ ¬IsSignedSpelling spelling t) := by
  have hok (ms : List Matcher) : ((readTraceId spelling).map fun t => [traceId t]) = .ok ms ↔
      ∃ t, ms = [.traceId t] ∧ readTraceId spelling = .ok t := by
    cases readTraceId spelling <;> simp [Except.map, eq_comm]
  have herror (fault : Fault) : ((readTraceId spelling).map fun t => [traceId t]) = .error fault ↔
      readTraceId spelling = .error fault := by
    cases readTraceId spelling <;> simp [Except.map]
  rw [decode_traceIdDocument]
  simp only [← readTraceId_eq_ok_iff, ← not_or]
  exact ⟨hok, (herror _).trans (readTraceId_eq_length_iff spelling),
    (herror _).trans (readTraceId_eq_malformed_iff spelling)⟩

/-- Digits alone are not all that is read: a plus sign counts as one of the 32 characters. -/
theorem signed_spelling_read :
    ¬∀ spelling ms, decode (traceIdDocument spelling) = .ok ms ↔
      ∃ t, ms = [.traceId t] ∧ IsHexSpelling spelling t := by
  intro h
  have hread : decode (traceIdDocument "+0000000000000000000000000000001") = .ok [.traceId (.ofNat 1)] := by
    decide +kernel
  obtain ⟨t, -, -, hdenotes⟩ := (h _ _).mp hread
  have hplus : "+0000000000000000000000000000001".toList = '+' :: "0000000000000000000000000000001".toList := by
    decide +kernel
  rw [hplus] at hdenotes
  exact not_denotes_plus 16 _ _ hdenotes

end ContentProbe.Matcher
