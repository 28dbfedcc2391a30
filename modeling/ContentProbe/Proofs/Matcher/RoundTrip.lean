import ContentProbe.Matcher.Codec
import ContentProbe.Proofs.Json.Documents
import ContentProbe.Proofs.Matcher.Spelling

/-!
Matchers survive their JSON text. Whatever keys, values and names hold, and whatever the trace ids are, a list
of matchers that was written is read back as that list, and so no two lists have one text.
-/

namespace ContentProbe.Matcher

open ContentProbe.Text Json

/-! One matcher -/

theorem expect_cons {c : Char} (hc : isSpace c = false) (cs : List Char) : expect c (c :: cs) = .ok cs := by
  rw [expect, skipSpace_cons hc]
  exact if_pos rfl

theorem compact_member (key : String) (value : Json) (cs : List Char) :
    compact (.record [(key, value)]) ++ cs =
      '{' :: (writeLiteral (some key) ++ (':' :: (compact value ++ ('}' :: cs)))) := by
  simp [Json.record, compact, compactFields, List.append_assoc]

/-- A key, as the reader finds it behind the opening brace. -/
theorem readText_key (key : String) (cs : List Char) :
    readText (skipSpace (writeLiteral (some key) ++ cs)) = some (key, cs) := by
  have hskip : skipSpace (writeLiteral (some key) ++ cs) = writeLiteral (some key) ++ cs :=
    skipSpace_cons (by decide : isSpace '"' = false) _
  rw [hskip, readText_writeLiteral]

/-- The members of an attribute matcher are found under their keys. -/
theorem readAttribute?_record (key value : String) :
    readAttribute? (.record [("key", .text key), ("value", .text value)]) = some (.attribute key value) := by
  simp [readAttribute?, Json.record, Json.text, valuesOf]

theorem read_compact (m : Matcher) (cs : List Char) : read (compact (toJson m) ++ cs) = .ok (m, cs) := by
  match m with
  | .traceId trace =>
      rw [toJson, compact_member, read, expect_cons (by decide)]
      simp only [bind, Except.bind, readText_key, orMalformed, expect_cons (by decide : isSpace ':' = false),
        if_true, Json.text, compact, readTraceId_hex, pure, Except.pure,
        expect_cons (by decide : isSpace '}' = false)]
  | .attribute key value =>
      have hvalue : readValue (compact (.record [("key", .text key), ("value", .text value)]) ++ '}' :: cs) =
          some (.record [("key", .text key), ("value", .text value)], '}' :: cs) :=
        readValue_compact (.record (by simp [Exact.text])) (.brace cs)
      rw [toJson, compact_member, read, expect_cons (by decide)]
      simp only [bind, Except.bind, readText_key, orMalformed, expect_cons (by decide : isSpace ':' = false),
        String.reduceEq, if_false, if_true, hvalue, readAttribute?_record, pure, Except.pure,
        expect_cons (by decide : isSpace '}' = false)]
  | .name n =>
      rw [toJson, compact_member, read, expect_cons (by decide)]
      simp only [bind, Except.bind, readText_key, orMalformed, expect_cons (by decide : isSpace ':' = false),
        String.reduceEq, if_false, if_true, Json.text, compact, pure, Except.pure,
        expect_cons (by decide : isSpace '}' = false)]

/-! Lists of matchers -/

theorem readMany_compactItems (m : Matcher) (ms : List Matcher) (fuel : Nat) (hfuel : ms.length < fuel)
    (cs : List Char) :
    readMany fuel (compactItems ((m :: ms).map toJson) ++ cs) = .ok (m :: ms, cs) := by
  induction ms generalizing m fuel with
  | nil =>
      obtain ⟨fuel, rfl⟩ := Nat.exists_eq_add_one.mpr hfuel
      simp only [List.map_cons, List.map_nil, compactItems, List.append_assoc, List.singleton_append]
      rw [readMany, read_compact]
      simp only [bind, Except.bind, skipSpace_cons (by decide : isSpace ']' = false)]
      rfl
  | cons next ms ih =>
      obtain ⟨fuel, rfl⟩ := Nat.exists_eq_add_one.mpr (Nat.zero_lt_of_lt hfuel)
      have hrest := ih next fuel (by rw [List.length_cons] at hfuel; omega)
      rw [List.map_cons, List.map_cons, compactItems_cons, List.append_assoc, List.cons_append, readMany,
        read_compact]
      simp only [bind, Except.bind, skipSpace_cons (by decide : isSpace ',' = false)]
      rw [← List.map_cons, hrest]
      rfl

/-- A list is no longer than its text. -/
theorem length_le_compactItems (items : List Json) : items.length < (compactItems items).length := by
  induction items with
  | nil => simp [compactItems]
  | cons item items ih =>
      obtain ⟨c, cs, htext, -, -⟩ := compact_head item
      cases items with
      | nil => simp [compactItems, htext]
      | cons next items =>
          rw [compactItems_cons, List.length_append, htext]
          simp only [List.length_cons] at ih ⊢
          omega

/-- What is written of matchers is read back as the same matchers. -/
theorem decode_encode (ms : List Matcher) : decode (encode ms) = .ok ms := by
  rw [decode, encode, Json.compactText, String.toList_ofList, compact, expect_cons (by decide)]
  simp only [bind, Except.bind]
  cases ms with
  | nil => rfl
  | cons m ms =>
      obtain ⟨c, rest, hrest, hspace, hclose⟩ := compactItems_head (toJson m) (ms.map toJson)
      rw [← List.map_cons] at hrest
      have hfuel := length_le_compactItems ((m :: ms).map toJson)
      rw [List.length_map, List.length_cons] at hfuel
      have hread := readMany_compactItems m ms (compactItems ((m :: ms).map toJson)).length (by omega) []
      rw [List.append_nil] at hread
      rw [hrest, skipSpace_cons hspace, ← hrest]
      split
      · rename_i heq
        exact absurd (List.cons.inj (hrest.symm.trans heq)).1 hclose
      · rw [hread]
        rfl

theorem encode_injective {ms ms' : List Matcher} (h : encode ms = encode ms') : ms = ms' := by
  have hdecode : decode (encode ms) = decode (encode ms') := congrArg decode h
  rw [decode_encode, decode_encode] at hdecode
  exact Except.ok.inj hdecode

/-- The text that is written of the matchers that a text holds. -/
def rewritten (text : String) : Except Fault String := (decode text).map encode

/-- A list of matchers, of whatever texts and trace ids, is read back from its JSON text. So distinct lists
have distinct texts, and what is written of an accepted text is accepted and does not change when it is
written again. -/
theorem matchers_round_trip :
    (∀ ms : List Matcher, decode (encode ms) = .ok ms) ∧ Function.Injective encode ∧
      ∀ text, (rewritten text).bind rewritten = rewritten text := by
  refine ⟨decode_encode, fun ms ms' heq => encode_injective heq, fun text => ?_⟩
  unfold rewritten
  cases decode text with
  | error fault => rfl
  | ok ms =>
      change (decode (encode ms)).map encode = .ok (encode ms)
      rw [decode_encode]
      rfl

/-- Quotes, control characters and characters beyond 16 bits, and the trace id zero. -/
example : decode (encode [.traceId (.ofNat 0), .attribute "\"\\" "\x01\n", .name "😀"]) =
    .ok [.traceId (.ofNat 0), .attribute "\"\\" "\x01\n", .name "😀"] := by decide +kernel

end ContentProbe.Matcher
