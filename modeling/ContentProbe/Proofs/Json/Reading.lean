import ContentProbe.Proofs.Json.Literals
import ContentProbe.Proofs.Json.Numerals
import Mathlib.Data.List.DropRight

/-!
The reader reads the documents of the grammar and nothing else. Each value ends where the reader ends it, since only
a number could go on, and what follows a value is a space, a comma, a bracket or a brace. The fuel that the reader is
given is enough, since each level of values and of items takes a character at least.
-/

namespace ContentProbe.Json

open ContentProbe.Text

/-! Spaces -/

theorem isSpace_iff {c : Char} : isSpace c = true ↔ c = ' ' ∨ c = '\n' ∨ c = '\t' ∨ c = '\r' := by
  simp only [isSpace, Bool.or_eq_true, beq_iff_eq, or_assoc]

theorem skipSpace_cons {c : Char} (hc : isSpace c = false) (cs : List Char) :
    skipSpace (c :: cs) = c :: cs := by
  rw [skipSpace, List.dropWhile_cons_of_neg (by simp [hc])]

theorem Spaces.nil : Spaces [] := fun _ hc => nomatch hc

theorem Spaces.isSpace {gap : List Char} (h : Spaces gap) : ∀ c ∈ gap, isSpace c = true :=
  fun c hc => isSpace_iff.mpr (h c hc)

theorem Spaces.skip {gap : List Char} (h : Spaces gap) (cs : List Char) : skipSpace (gap ++ cs) = skipSpace cs :=
  List.dropWhile_append_of_pos h.isSpace

theorem exists_spaces (cs : List Char) : ∃ gap, Spaces gap ∧ cs = gap ++ skipSpace cs :=
  ⟨cs.takeWhile Json.isSpace, fun c hc => isSpace_iff.mp (List.all_eq_true.mp List.all_takeWhile c hc),
    List.takeWhile_append_dropWhile.symm⟩

/-- What stands before the first character that is no space. -/
theorem exists_spaces_of_skip {c : Char} {cs rest : List Char} (h : skipSpace cs = c :: rest) :
    ∃ gap, Spaces gap ∧ cs = (gap ++ [c]) ++ rest := by
  obtain ⟨gap, hgap, hcs⟩ := exists_spaces cs
  refine ⟨gap, hgap, ?_⟩
  rw [List.append_assoc, List.singleton_append, ← h]
  exact hcs

theorem skipSpace_skipSpace (cs : List Char) : skipSpace (skipSpace cs) = skipSpace cs :=
  List.dropWhile_idempotent _ _

theorem Delimited.spaces {gap cs : List Char} (hgap : Spaces gap) (h : Delimited cs) : Delimited (gap ++ cs) := by
  cases gap with
  | nil => exact h
  | cons c gap =>
      rintro _ ⟨⟩
      rcases hgap c List.mem_cons_self with rfl | rfl | rfl | rfl <;> decide

/-! One step of the reader -/

theorem readValueFrom_skipSpace (fuel : Nat) (cs : List Char) :
    readValueFrom fuel (skipSpace cs) = readValueFrom fuel cs := by
  cases fuel with
  | zero => rw [readValueFrom_zero, readValueFrom_zero]
  | succ fuel => rw [readValueFrom, readValueFrom, skipSpace_skipSpace]

theorem readItemsFrom_skipSpace (fuel : Nat) (cs : List Char) :
    readItemsFrom fuel (skipSpace cs) = readItemsFrom fuel cs := by
  cases fuel with
  | zero => rw [readItemsFrom_zero, readItemsFrom_zero]
  | succ fuel => rw [readItemsFrom, readItemsFrom, readValueFrom_skipSpace]

theorem readFieldsFrom_skipSpace (fuel : Nat) (cs : List Char) :
    readFieldsFrom fuel (skipSpace cs) = readFieldsFrom fuel cs := by
  cases fuel with
  | zero => rw [readFieldsFrom_zero, readFieldsFrom_zero]
  | succ fuel => rw [readFieldsFrom, readFieldsFrom, skipSpace_skipSpace]

theorem readValueFrom_quote (fuel : Nat) (cs : List Char) :
    readValueFrom (fuel + 1) ('"' :: cs) =
      (readLiteral cs).map fun (literal, rest) => (.string literal, rest) := by
  have hopen : readValueFrom (fuel + 1) ('"' :: cs) =
      (do let (literal, rest) ← readLiteral cs; return (.string literal, rest)) := by
    rw [readValueFrom, skipSpace_cons (by decide)]
    rfl
  rw [hopen]
  cases readLiteral cs <;> rfl

theorem not_space_of_number {c : Char} (hc : c = '-' ∨ isDigit c = true) : isSpace c = false ∧ c ≠ ']' := by
  constructor
  · rw [Bool.eq_false_iff, ne_eq, isSpace_iff]
    rintro (rfl | rfl | rfl | rfl) <;> exact absurd hc (by decide)
  · rintro rfl
    exact absurd hc (by decide)

/-- A number is recognised by what it begins with. -/
theorem readValueFrom_number {c : Char} (hc : c = '-' ∨ isDigit c = true) (fuel : Nat) (cs : List Char) :
    readValueFrom (fuel + 1) (c :: cs) = (readNumeral (c :: cs)).map fun (n, rest) => (.number n, rest) := by
  have hhead {d : Char} (hd : ¬(d = '-' ∨ isDigit d = true)) (later : List Char) : c :: cs = d :: later → False :=
    fun heq => hd ((List.cons.inj heq).1 ▸ hc)
  rw [readValueFrom, skipSpace_cons (not_space_of_number hc).1]
  split
  · exact absurd ‹_› (hhead (by decide) _)
  · exact absurd ‹_› (hhead (by decide) _)
  · exact absurd ‹_› (hhead (by decide) _)
  · exact absurd ‹_› (hhead (by decide) _)
  · exact absurd ‹_› (hhead (by decide) _)
  · exact absurd ‹_› (hhead (by decide) _)
  · cases readNumeral (c :: cs) <;> rfl

theorem readValueFrom_emptyArray {cs rest : List Char} (h : skipSpace cs = ']' :: rest) (fuel : Nat) :
    readValueFrom (fuel + 1) ('[' :: cs) = some (.array [], rest) := by
  rw [readValueFrom, skipSpace_cons (by decide)]
  simp only [h]

theorem readValueFrom_array {cs : List Char} (h : ∀ rest, skipSpace cs ≠ ']' :: rest) (fuel : Nat) :
    readValueFrom (fuel + 1) ('[' :: cs) =
      (readItemsFrom fuel cs).map fun (items, rest) => (.array items, rest) := by
  rw [← readItemsFrom_skipSpace fuel cs, readValueFrom]
  simp only [skipSpace_cons (by decide : isSpace '[' = false)]
  cases readItemsFrom fuel (skipSpace cs) <;> rfl

theorem readValueFrom_emptyObject {cs rest : List Char} (h : skipSpace cs = '}' :: rest) (fuel : Nat) :
    readValueFrom (fuel + 1) ('{' :: cs) = some (.object [], rest) := by
  rw [readValueFrom, skipSpace_cons (by decide)]
  simp only [h]

theorem readValueFrom_object {cs : List Char} (h : ∀ rest, skipSpace cs ≠ '}' :: rest) (fuel : Nat) :
    readValueFrom (fuel + 1) ('{' :: cs) =
      (readFieldsFrom fuel cs).map fun (fields, rest) => (.object fields, rest) := by
  rw [← readFieldsFrom_skipSpace fuel cs, readValueFrom]
  simp only [skipSpace_cons (by decide : isSpace '{' = false)]
  cases readFieldsFrom fuel (skipSpace cs) <;> rfl

/-! Documents of the grammar are read -/

/-- A value begins with a character of its kind. -/
theorem Spells.head {j : Json} {text : List Char} (h : Spells j text) :
    ∃ c cs, text = c :: cs ∧ isSpace c = false ∧ c ≠ ']' := by
  match j with
  | .null => exact ⟨_, _, h, by decide, by decide⟩
  | .bool true => exact ⟨_, _, h, by decide, by decide⟩
  | .bool false => exact ⟨_, _, h, by decide, by decide⟩
  | .number n =>
      obtain ⟨c, cs, rfl, hc⟩ := NumeralText.head h
      exact ⟨c, cs, rfl, not_space_of_number hc⟩
  | .string s =>
      obtain ⟨_, rfl⟩ := LiteralText.head h
      exact ⟨_, _, rfl, by decide, by decide⟩
  | .array items =>
      obtain ⟨_, rfl, -⟩ := h
      exact ⟨_, _, rfl, by decide, by decide⟩
  | .object fields =>
      obtain ⟨_, rfl, -⟩ := h
      exact ⟨_, _, rfl, by decide, by decide⟩

theorem SpellsItems.ne_nil {items : List Json} {text : List Char} (h : SpellsItems items text) : text ≠ [] := by
  rintro rfl
  cases items with
  | nil =>
      obtain ⟨gap, -, heq⟩ := h
      exact absurd heq.symm (by simp)
  | cons item items =>
      obtain ⟨value, rest, -, heq, hrest⟩ := h
      obtain ⟨-, rfl⟩ := List.append_eq_nil_iff.mp heq.symm
      rcases hrest with ⟨-, hclose⟩ | ⟨-, _, hcomma, -⟩
      · cases hclose
      · cases hcomma

theorem SpellsFields.ne_nil {fields : List (Option String × Json)} {text : List Char}
    (h : SpellsFields fields text) : text ≠ [] := by
  rintro rfl
  cases fields with
  | nil =>
      obtain ⟨gap, -, heq⟩ := h
      exact absurd heq.symm (by simp)
  | cons field fields =>
      obtain ⟨name, value, rest, -, -, heq, -⟩ := h
      exact absurd heq.symm (by simp)

theorem SpellsItems.not_closed {items : List Json} {text : List Char} (h : SpellsItems items text) (hne : items ≠ [])
    (cs rest : List Char) : skipSpace (text ++ cs) ≠ ']' :: rest := by
  obtain ⟨item, items, rfl⟩ := List.exists_cons_of_ne_nil hne
  obtain ⟨_, later, ⟨before, value, after, hbefore, hvalue, -, rfl⟩, rfl, -⟩ := h
  obtain ⟨c, more, rfl, hspace, hclose⟩ := hvalue.head
  simp only [List.append_assoc, hbefore.skip, List.cons_append, skipSpace_cons hspace]
  exact fun heq => hclose (List.cons.inj heq).1

theorem SpellsFields.not_closed {fields : List (Option String × Json)} {text : List Char}
    (h : SpellsFields fields text) (hne : fields ≠ []) (cs rest : List Char) :
    skipSpace (text ++ cs) ≠ '}' :: rest := by
  obtain ⟨field, fields, rfl⟩ := List.exists_cons_of_ne_nil hne
  obtain ⟨_, _, later, ⟨before, name, after, hbefore, hname, -, rfl⟩, -, rfl, -⟩ := h
  obtain ⟨_, rfl⟩ := hname.head
  simp only [List.append_assoc, hbefore.skip, List.cons_append, skipSpace_cons (by decide : isSpace '"' = false)]
  exact fun heq => absurd (List.cons.inj heq).1 (by decide)

/-- With the fuel a value is read, whatever follows it that could not belong to it. -/
def ReadsValues (fuel : Nat) : Prop :=
  ∀ j text cs, Spells j text → 2 * text.length ≤ fuel → Delimited cs → readValueFrom fuel (text ++ cs) = some (j, cs)

def ReadsItems (fuel : Nat) : Prop :=
  ∀ items text cs, items ≠ [] → SpellsItems items text → 2 * text.length ≤ fuel →
    readItemsFrom fuel (text ++ cs) = some (items, cs)

def ReadsFields (fuel : Nat) : Prop :=
  ∀ fields text cs, fields ≠ [] → SpellsFields fields text → 2 * text.length ≤ fuel →
    readFieldsFrom fuel (text ++ cs) = some (fields, cs)

theorem ReadsValues.succ {fuel : Nat} (hitems : ReadsItems fuel) (hfields : ReadsFields fuel) :
    ReadsValues (fuel + 1) := by
  intro j text cs h hfuel hend
  match j with
  | .null =>
      obtain rfl : text = _ := h
      rfl
  | .bool true =>
      obtain rfl : text = _ := h
      rfl
  | .bool false =>
      obtain rfl : text = _ := h
      rfl
  | .number n =>
      obtain ⟨c, more, rfl, hc⟩ := NumeralText.head h
      rw [List.cons_append, readValueFrom_number hc, ← List.cons_append, readNumeral_of_text h hend]
      rfl
  | .string s =>
      obtain ⟨more, rfl⟩ := LiteralText.head h
      have hread : readLiteral (more ++ cs) = some (s, cs) := readLiteral_eq_some_iff.mpr ⟨_, h, rfl⟩
      rw [List.cons_append, readValueFrom_quote, hread]
      rfl
  | .array [] =>
      obtain ⟨_, rfl, gap, hgap, rfl⟩ := h
      rw [List.cons_append, List.append_assoc]
      exact readValueFrom_emptyArray (by rw [hgap.skip]; rfl) fuel
  | .array (item :: items) =>
      obtain ⟨rest, rfl, h⟩ := h
      rw [List.length_cons] at hfuel
      have hne : item :: items ≠ [] := List.cons_ne_nil _ _
      rw [List.cons_append, readValueFrom_array (h.not_closed hne cs), hitems _ _ cs hne h (by omega)]
      rfl
  | .object [] =>
      obtain ⟨_, rfl, gap, hgap, rfl⟩ := h
      rw [List.cons_append, List.append_assoc]
      exact readValueFrom_emptyObject (by rw [hgap.skip]; rfl) fuel
  | .object (field :: fields) =>
      obtain ⟨rest, rfl, h⟩ := h
      rw [List.length_cons] at hfuel
      have hne : field :: fields ≠ [] := List.cons_ne_nil _ _
      rw [List.cons_append, readValueFrom_object (h.not_closed hne cs), hfields _ _ cs hne h (by omega)]
      rfl

/-- A value is read with the spaces before it; those behind it are left. -/
theorem ReadsValues.padded {fuel : Nat} (hvalues : ReadsValues fuel) {j : Json} {text cs : List Char}
    (h : Padded (Spells j) text) (hfuel : 2 * text.length ≤ fuel) (hend : Delimited cs) :
    ∃ gap, Spaces gap ∧ readValueFrom fuel (text ++ cs) = some (j, gap ++ cs) := by
  obtain ⟨before, value, after, hbefore, hvalue, hafter, rfl⟩ := h
  simp only [List.length_append] at hfuel
  refine ⟨after, hafter, ?_⟩
  rw [List.append_assoc, ← readValueFrom_skipSpace, hbefore.skip, readValueFrom_skipSpace, List.append_assoc]
  exact hvalues _ _ _ hvalue (by omega) (hend.spaces hafter)

/-- A key is read in the same way. -/
theorem readLiteral_of_padded {key : Option String} {text : List Char} (h : Padded (LiteralText · key) text)
    (cs : List Char) :
    ∃ gap more, Spaces gap ∧ skipSpace (text ++ cs) = '"' :: more ∧ readLiteral more = some (key, gap ++ cs) := by
  obtain ⟨before, value, after, hbefore, hvalue, hafter, rfl⟩ := h
  obtain ⟨more, rfl⟩ := hvalue.head
  refine ⟨after, more ++ (after ++ cs), hafter, ?_, readLiteral_eq_some_iff.mpr ⟨_, hvalue, rfl⟩⟩
  rw [List.append_assoc, hbefore.skip, List.append_assoc, List.cons_append, skipSpace_cons (by decide)]

theorem ReadsItems.succ {fuel : Nat} (hvalues : ReadsValues fuel) (hitems : ReadsItems fuel) :
    ReadsItems (fuel + 1) := by
  intro items text cs hne h hfuel
  obtain ⟨item, items, rfl⟩ := List.exists_cons_of_ne_nil hne
  obtain ⟨value, rest, hvalue, rfl, ⟨rfl, rfl⟩ | ⟨hmore, more, rfl, h⟩⟩ := h
  · rw [List.length_append, List.length_singleton] at hfuel
    obtain ⟨gap, hgap, hread⟩ := hvalues.padded hvalue (by omega) (.bracket cs)
    rw [List.append_assoc, List.singleton_append, readItemsFrom, hread]
    simp only [Option.bind_eq_bind, Option.bind_some, hgap.skip, skipSpace_cons (by decide : isSpace ']' = false)]
    rfl
  · rw [List.length_append, List.length_cons] at hfuel
    obtain ⟨gap, hgap, hread⟩ := hvalues.padded hvalue (by omega) (.comma (more ++ cs))
    rw [List.append_assoc, List.cons_append, readItemsFrom, hread]
    simp only [Option.bind_eq_bind, Option.bind_some, hgap.skip, skipSpace_cons (by decide : isSpace ',' = false),
      hitems items more cs hmore h (by omega)]
    rfl

theorem ReadsFields.succ {fuel : Nat} (hvalues : ReadsValues fuel) (hfields : ReadsFields fuel) :
    ReadsFields (fuel + 1) := by
  intro fields text cs hne h hfuel
  obtain ⟨⟨key, value⟩, fields, rfl⟩ := List.exists_cons_of_ne_nil hne
  obtain ⟨name, valueText, rest, hname, hvalue, rfl, h⟩ := h
  obtain ⟨gap, later, hgap, hopen, hkey⟩ := readLiteral_of_padded hname (':' :: (valueText ++ (rest ++ cs)))
  simp only [List.length_append, List.length_cons] at hfuel
  rw [List.append_assoc, List.cons_append, List.append_assoc, readFieldsFrom, hopen]
  simp only [Option.bind_eq_bind, Option.bind_some, hkey, hgap.skip, skipSpace_cons (by decide : isSpace ':' = false)]
  obtain ⟨rfl, rfl⟩ | ⟨hmore, more, rfl, h⟩ := h
  · obtain ⟨gap, hgap, hread⟩ := hvalues.padded hvalue (by omega) (.brace cs)
    rw [List.singleton_append, hread]
    simp only [Option.bind_some, hgap.skip, skipSpace_cons (by decide : isSpace '}' = false)]
    rfl
  · rw [List.length_cons] at hfuel
    obtain ⟨gap, hgap, hread⟩ := hvalues.padded hvalue (by omega) (.comma (more ++ cs))
    rw [List.cons_append, hread]
    simp only [Option.bind_some, hgap.skip, skipSpace_cons (by decide : isSpace ',' = false),
      hfields fields more cs hmore h (by omega)]
    rfl

theorem reads (fuel : Nat) : ReadsValues fuel ∧ ReadsItems fuel ∧ ReadsFields fuel := by
  induction fuel with
  | zero =>
      -- No text is as short as that.
      have hshort {text : List Char} (hne : text ≠ []) (hfuel : 2 * text.length ≤ 0) : False :=
        hne (List.length_eq_zero_iff.mp (by omega))
      refine ⟨fun j text cs h hfuel => ?_, fun items text cs _ h hfuel => ?_, fun fields text cs _ h hfuel => ?_⟩
      · obtain ⟨c, more, rfl, -⟩ := h.head
        exact (hshort (List.cons_ne_nil c more) hfuel).elim
      · exact (hshort h.ne_nil hfuel).elim
      · exact (hshort h.ne_nil hfuel).elim
  | succ fuel ih =>
      obtain ⟨hvalues, hitems, hfields⟩ := ih
      exact ⟨.succ hitems hfields, .succ hvalues hitems, .succ hvalues hfields⟩

/-- A value is read, whatever follows it that could not belong to it. -/
theorem readValue_of_spells {j : Json} {text : List Char} (h : Spells j text) {cs : List Char} (hend : Delimited cs) :
    readValue (text ++ cs) = some (j, cs) :=
  (reads _).1 j text cs h (by rw [List.length_append]; omega) hend

/-! What is read is a document of the grammar -/

/-- What the fuel lets the reader read as a value is one, behind spaces. -/
def TakesValues (fuel : Nat) : Prop :=
  ∀ cs j rest, readValueFrom fuel cs = some (j, rest) →
    ∃ before text, Spaces before ∧ Spells j text ∧ cs = before ++ (text ++ rest)

def TakesItems (fuel : Nat) : Prop :=
  ∀ cs items rest, readItemsFrom fuel cs = some (items, rest) →
    items ≠ [] ∧ ∃ text, SpellsItems items text ∧ cs = text ++ rest

def TakesFields (fuel : Nat) : Prop :=
  ∀ cs fields rest, readFieldsFrom fuel cs = some (fields, rest) →
    fields ≠ [] ∧ ∃ text, SpellsFields fields text ∧ cs = text ++ rest

theorem afterWord?_eq_some_iff {word : String} {cs rest : List Char} :
    afterWord? word cs = some rest ↔ cs = word.toList ++ rest := by
  rw [afterWord?, Option.ite_none_right_eq_some, List.isPrefixOf_iff_prefix, Option.some.injEq]
  constructor
  · rintro ⟨⟨more, rfl⟩, rfl⟩
    rw [← String.length_toList, List.drop_left]
  · rintro rfl
    exact ⟨List.prefix_append _ _, by rw [← String.length_toList, List.drop_left]⟩

/-- What is left of a word behind its first letter is read in the same way for each word. -/
theorem word_of_read {word : String} {value j : Json} {cs rest : List Char}
    (h : (do return (value, ← afterWord? word cs)) = some (j, rest)) : value = j ∧ cs = word.toList ++ rest := by
  obtain ⟨later, hword, heq⟩ := Option.bind_eq_some_iff.mp h
  obtain ⟨hvalue, rfl⟩ := Prod.mk.inj (Option.some.inj heq)
  exact ⟨hvalue, afterWord?_eq_some_iff.mp hword⟩

theorem TakesValues.succ {fuel : Nat} (hitems : TakesItems fuel) (hfields : TakesFields fuel) :
    TakesValues (fuel + 1) := by
  intro cs j rest h
  obtain ⟨before, hbefore, hcs⟩ := exists_spaces cs
  refine ⟨before, ?_⟩
  suffices hvalue : ∃ text, Spells j text ∧ skipSpace cs = text ++ rest by
    obtain ⟨text, htext, hrest⟩ := hvalue
    exact ⟨text, hbefore, htext, by rw [hcs, hrest]⟩
  clear hcs hbefore before
  rw [readValueFrom] at h
  split at h
  · rename_i more hskip
    rw [hskip]
    obtain ⟨⟨literal, _⟩, hliteral, heq⟩ := Option.bind_eq_some_iff.mp h
    cases heq
    obtain ⟨text, htext, heq⟩ := readLiteral_eq_some_iff.mp hliteral
    exact ⟨text, htext, heq⟩
  · rename_i more hskip
    rw [hskip]
    split at h
    · rename_i hclose
      cases h
      obtain ⟨gap, hgap, rfl⟩ := exists_spaces_of_skip hclose
      exact ⟨_, ⟨_, rfl, gap, hgap, rfl⟩, rfl⟩
    · obtain ⟨⟨items, _⟩, hread, heq⟩ := Option.bind_eq_some_iff.mp h
      cases heq
      rw [readItemsFrom_skipSpace] at hread
      obtain ⟨-, text, htext, rfl⟩ := hitems _ _ _ hread
      exact ⟨_, ⟨text, rfl, htext⟩, rfl⟩
  · rename_i more hskip
    rw [hskip]
    split at h
    · rename_i hclose
      cases h
      obtain ⟨gap, hgap, rfl⟩ := exists_spaces_of_skip hclose
      exact ⟨_, ⟨_, rfl, gap, hgap, rfl⟩, rfl⟩
    · obtain ⟨⟨fields, _⟩, hread, heq⟩ := Option.bind_eq_some_iff.mp h
      cases heq
      rw [readFieldsFrom_skipSpace] at hread
      obtain ⟨-, text, htext, rfl⟩ := hfields _ _ _ hread
      exact ⟨_, ⟨text, rfl, htext⟩, rfl⟩
  · rename_i more hskip
    rw [hskip]
    obtain ⟨rfl, rfl⟩ := word_of_read h
    exact ⟨_, rfl, rfl⟩
  · rename_i more hskip
    rw [hskip]
    obtain ⟨rfl, rfl⟩ := word_of_read h
    exact ⟨_, rfl, rfl⟩
  · rename_i more hskip
    rw [hskip]
    obtain ⟨rfl, rfl⟩ := word_of_read h
    exact ⟨_, rfl, rfl⟩
  · obtain ⟨⟨n, _⟩, hnumeral, heq⟩ := Option.bind_eq_some_iff.mp h
    cases heq
    exact text_of_readNumeral hnumeral

theorem TakesValues.padded {fuel : Nat} (hvalues : TakesValues fuel) {cs rest : List Char} {j : Json}
    (h : readValueFrom fuel cs = some (j, rest)) : ∃ text, Padded (Spells j) text ∧ cs = text ++ skipSpace rest := by
  obtain ⟨before, text, hbefore, htext, rfl⟩ := hvalues _ _ _ h
  obtain ⟨after, hafter, hrest⟩ := exists_spaces rest
  refine ⟨_, ⟨before, text, after, hbefore, htext, hafter, rfl⟩, ?_⟩
  rw [List.append_assoc, List.append_assoc, ← hrest]

theorem padded_of_readLiteral {key : Option String} {cs more rest : List Char} (hopen : skipSpace cs = '"' :: more)
    (h : readLiteral more = some (key, rest)) :
    ∃ text, Padded (LiteralText · key) text ∧ cs = text ++ skipSpace rest := by
  obtain ⟨before, hbefore, hcs⟩ := exists_spaces cs
  obtain ⟨text, htext, heq⟩ := readLiteral_eq_some_iff.mp h
  obtain ⟨after, hafter, hrest⟩ := exists_spaces rest
  refine ⟨_, ⟨before, text, after, hbefore, htext, hafter, rfl⟩, ?_⟩
  rw [List.append_assoc, List.append_assoc, ← hrest, ← heq, ← hopen, ← hcs]

theorem TakesItems.succ {fuel : Nat} (hvalues : TakesValues fuel) (hitems : TakesItems fuel) :
    TakesItems (fuel + 1) := by
  intro cs items rest h
  rw [readItemsFrom] at h
  obtain ⟨⟨item, later⟩, hread, hlater⟩ := Option.bind_eq_some_iff.mp h
  clear h
  obtain ⟨value, hvalue, rfl⟩ := hvalues.padded hread
  dsimp only at hlater
  split at hlater
  · rename_i hclose
    cases hlater
    exact ⟨List.cons_ne_nil _ _, _, ⟨value, [']'], hvalue, rfl, Or.inl ⟨rfl, rfl⟩⟩, by rw [hclose]; simp⟩
  · rename_i hcomma
    obtain ⟨⟨more, _⟩, hmore, heq⟩ := Option.bind_eq_some_iff.mp hlater
    cases heq
    obtain ⟨hne, text, htext, rfl⟩ := hitems _ _ _ hmore
    exact ⟨List.cons_ne_nil _ _, _, ⟨value, _, hvalue, rfl, Or.inr ⟨hne, text, rfl, htext⟩⟩, by rw [hcomma]; simp⟩
  · cases hlater

theorem TakesFields.succ {fuel : Nat} (hvalues : TakesValues fuel) (hfields : TakesFields fuel) :
    TakesFields (fuel + 1) := by
  intro cs fields rest h
  rw [readFieldsFrom] at h
  split at h
  · rename_i opened hopen
    obtain ⟨⟨key, later⟩, hkey, hlater⟩ := Option.bind_eq_some_iff.mp h
    clear h
    obtain ⟨name, hname, rfl⟩ := padded_of_readLiteral hopen hkey
    dsimp only at hlater
    split at hlater
    · rename_i behind hcolon
      obtain ⟨⟨value, afterValue⟩, hread, hafter⟩ := Option.bind_eq_some_iff.mp hlater
      clear hlater
      obtain ⟨text, htext, rfl⟩ := hvalues.padded hread
      dsimp only at hafter
      split at hafter
      · rename_i hclose
        cases hafter
        exact ⟨List.cons_ne_nil _ _, _, ⟨name, text, ['}'], hname, htext, rfl, Or.inl ⟨rfl, rfl⟩⟩,
          by rw [hcolon, hclose]; simp⟩
      · rename_i hcomma
        obtain ⟨⟨more, _⟩, hmore, heq⟩ := Option.bind_eq_some_iff.mp hafter
        cases heq
        obtain ⟨hne, fieldsText, hfieldsText, rfl⟩ := hfields _ _ _ hmore
        exact ⟨List.cons_ne_nil _ _, _,
          ⟨name, text, _, hname, htext, rfl, Or.inr ⟨hne, fieldsText, rfl, hfieldsText⟩⟩,
          by rw [hcolon, hcomma]; simp⟩
      · cases hafter
    · cases hlater
  · cases h

theorem takes (fuel : Nat) : TakesValues fuel ∧ TakesItems fuel ∧ TakesFields fuel := by
  induction fuel with
  | zero =>
      refine ⟨fun cs j rest h => ?_, fun cs items rest h => ?_, fun cs fields rest h => ?_⟩
      · rw [readValueFrom_zero] at h
        cases h
      · rw [readItemsFrom_zero] at h
        cases h
      · rw [readFieldsFrom_zero] at h
        cases h
  | succ fuel ih =>
      obtain ⟨hvalues, hitems, hfields⟩ := ih
      exact ⟨.succ hitems hfields, .succ hvalues hitems, .succ hvalues hfields⟩

/-- The documents that are read are those of the grammar. -/
theorem read?_eq_some_iff {cs : List Char} {j : Json} : read? cs = some j ↔ IsDocument cs j := by
  constructor
  · intro h
    rw [read?] at h
    split at h
    · rename_i value rest hread
      obtain ⟨hend, heq⟩ := Option.ite_none_right_eq_some.mp h
      cases heq
      obtain ⟨text, htext, hcs⟩ := (takes _).1.padded hread
      rw [List.isEmpty_iff.mp hend, List.append_nil] at hcs
      exact hcs ▸ htext
    · cases h
  · intro h
    have hlength : 2 * cs.length ≤ 2 * cs.length + 2 := Nat.le_add_right _ _
    obtain ⟨gap, hgap, hread⟩ := (reads _).1.padded h hlength .nil
    rw [List.append_nil, List.append_nil] at hread
    have hend : skipSpace gap = [] := by
      rw [← List.append_nil gap, hgap.skip]
      rfl
    rw [read?, readValue, hread]
    exact if_pos (List.isEmpty_iff.mpr hend)

/-- A text is one document at most. -/
theorem IsDocument.unique {cs : List Char} {j j' : Json} (h : IsDocument cs j) (h' : IsDocument cs j') : j = j' := by
  rw [← read?_eq_some_iff] at h h'
  exact Option.some.inj (h.symm.trans h')

end ContentProbe.Json
