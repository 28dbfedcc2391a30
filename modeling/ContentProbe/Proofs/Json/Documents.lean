import ContentProbe.Proofs.Json.Reading

/-!
Documents that are written, on one line or over indented lines, are documents of the grammar, and so they are read
back as themselves. A document that holds no literal without text, and of which each digit is one, loses nothing in
its text.
-/

namespace ContentProbe.Json

open ContentProbe.Text

mutual

/-- Every literal of a document has a text, and every digit of a fraction is a decimal digit. -/
def Exact : Json → Prop
  | .null => True
  | .bool _ => True
  | .number n => ∀ d ∈ n.fraction, d < 10
  | .string s => s.isSome = true
  | .array items => ExactItems items
  | .object fields => ExactFields fields

def ExactItems : List Json → Prop
  | [] => True
  | item :: items => Exact item ∧ ExactItems items

def ExactFields : List (Option String × Json) → Prop
  | [] => True
  | (key, value) :: fields => key.isSome = true ∧ Exact value ∧ ExactFields fields

end

/-! Writing on one line -/

theorem Padded.of {IsText : List Char → Prop} {text : List Char} (h : IsText text) : Padded IsText text :=
  ⟨[], text, [], .nil, h, .nil, by rw [List.append_nil, List.nil_append]⟩

theorem compactItems_cons (item next : Json) (items : List Json) :
    compactItems (item :: next :: items) = compact item ++ ',' :: compactItems (next :: items) := by
  rw [compactItems]

theorem compactFields_cons (field next : Option String × Json) (fields : List (Option String × Json)) :
    compactFields (field :: next :: fields) =
      writeLiteral field.1 ++ (':' :: (compact field.2 ++ ',' :: compactFields (next :: fields))) := by
  rw [compactFields]
  simp only [List.append_assoc, List.cons_append]

mutual

theorem spells_compact (j : Json) (hj : Exact j) : Spells j (compact j) := by
  match j with
  | .null => exact rfl
  | .bool true => exact rfl
  | .bool false => exact rfl
  | .number n => exact numeralText_writeNumeral hj
  | .string (some s) => exact literalText_writeLiteral s
  | .array items =>
      rw [compact]
      exact ⟨_, rfl, spells_compactItems items hj⟩
  | .object fields =>
      rw [compact]
      exact ⟨_, rfl, spells_compactFields fields hj⟩

theorem spells_compactItems (items : List Json) (hitems : ExactItems items) :
    SpellsItems items (compactItems items) := by
  match items with
  | [] => exact ⟨[], .nil, by rw [compactItems]; rfl⟩
  | [item] =>
      rw [compactItems]
      exact ⟨_, [']'], .of (spells_compact item hitems.1), rfl, Or.inl ⟨rfl, rfl⟩⟩
  | item :: next :: items =>
      rw [compactItems_cons]
      exact ⟨_, _, .of (spells_compact item hitems.1), rfl,
        Or.inr ⟨List.cons_ne_nil _ _, _, rfl, spells_compactItems (next :: items) hitems.2⟩⟩

theorem spells_compactFields (fields : List (Option String × Json)) (hfields : ExactFields fields) :
    SpellsFields fields (compactFields fields) := by
  match fields with
  | [] => exact ⟨[], .nil, by rw [compactFields]; rfl⟩
  | [(some key, value)] =>
      rw [compactFields, List.append_assoc, List.cons_append]
      exact ⟨_, _, ['}'], .of (literalText_writeLiteral key), .of (spells_compact value hfields.2.1), rfl,
        Or.inl ⟨rfl, rfl⟩⟩
  | (some key, value) :: next :: fields =>
      rw [compactFields_cons]
      exact ⟨_, _, _, .of (literalText_writeLiteral key), .of (spells_compact value hfields.2.1), rfl,
        Or.inr ⟨List.cons_ne_nil _ _, _, rfl, spells_compactFields (next :: fields) hfields.2.2⟩⟩

end

/-- A document is read back, whatever follows it. -/
theorem readValue_compact {j : Json} (hj : Exact j) {cs : List Char} (hend : Delimited cs) :
    readValue (compact j ++ cs) = some (j, cs) :=
  readValue_of_spells (spells_compact j hj) hend

theorem read?_compact {j : Json} (hj : Exact j) : read? (compact j) = some j :=
  read?_eq_some_iff.mpr (.of (spells_compact j hj))

/-- A document begins with a character of its kind. -/
theorem compact_head (j : Json) : ∃ c cs, compact j = c :: cs ∧ isSpace c = false ∧ c ≠ ']' := by
  cases j with
  | null => exact ⟨_, _, rfl, by decide, by decide⟩
  | bool b => cases b <;> exact ⟨_, _, rfl, by decide, by decide⟩
  | number n =>
      obtain ⟨c, cs, htext, hc⟩ := writeNumeral_head n
      obtain ⟨hspace, hclose⟩ := not_space_of_number hc
      exact ⟨c, cs, by rw [compact, htext], hspace, hclose⟩
  | string s => exact ⟨_, _, rfl, by decide, by decide⟩
  | array items => exact ⟨_, _, by rw [compact], by decide, by decide⟩
  | object fields => exact ⟨_, _, by rw [compact], by decide, by decide⟩

/-- The items of an array begin as their first one does. -/
theorem compactItems_head (item : Json) (items : List Json) :
    ∃ c cs, compactItems (item :: items) = c :: cs ∧ isSpace c = false ∧ c ≠ ']' := by
  obtain ⟨c, cs, htext, hspace, hclose⟩ := compact_head item
  cases items with
  | nil => exact ⟨c, cs ++ [']'], by simp [compactItems, htext], hspace, hclose⟩
  | cons next items =>
      exact ⟨c, cs ++ ',' :: compactItems (next :: items), by simp [compactItems_cons, htext], hspace, hclose⟩

/-! Writing over indented lines -/

theorem spaces_newline (depth : Nat) : Spaces (newline depth) := by
  intro c hc
  rcases List.mem_cons.mp hc with rfl | hc
  · exact Or.inr (Or.inl rfl)
  · exact Or.inl (List.eq_of_mem_replicate hc)

theorem spaces_blank : Spaces [' '] := by
  intro c hc
  exact Or.inl (List.mem_singleton.mp hc)

theorem padded_key (depth : Nat) (key : String) :
    Padded (LiteralText · (some key)) (newline depth ++ (writeLiteral (some key) ++ [])) :=
  ⟨_, _, _, spaces_newline depth, literalText_writeLiteral key, .nil, rfl⟩

mutual

theorem spells_pretty (depth : Nat) (j : Json) (hj : Exact j) : Spells j (pretty depth j) := by
  match j with
  | .null => exact rfl
  | .bool true => exact rfl
  | .bool false => exact rfl
  | .number n => exact numeralText_writeNumeral hj
  | .string (some s) => exact literalText_writeLiteral s
  | .array [] => exact ⟨_, rfl, [], .nil, rfl⟩
  | .array (item :: items) =>
      rw [pretty]
      exact ⟨_, rfl, spells_prettyItems depth (item :: items) hj⟩
  | .object [] => exact ⟨_, rfl, [], .nil, rfl⟩
  | .object (field :: fields) =>
      rw [pretty]
      exact ⟨_, rfl, spells_prettyFields depth (field :: fields) hj⟩

theorem spells_prettyItems (depth : Nat) (items : List Json) (hitems : ExactItems items) :
    SpellsItems items (prettyItems depth items) := by
  match items with
  | [] => exact ⟨[], .nil, by rw [prettyItems]; rfl⟩
  | [item] =>
      have hitem : Padded (Spells item) (newline (depth + 1) ++ (pretty (depth + 1) item ++ newline depth)) :=
        ⟨_, _, _, spaces_newline _, spells_pretty (depth + 1) item hitems.1, spaces_newline _, rfl⟩
      exact ⟨_, [']'], hitem, by rw [prettyItems]; simp, Or.inl ⟨rfl, rfl⟩⟩
  | item :: next :: items =>
      have hitem : Padded (Spells item) (newline (depth + 1) ++ (pretty (depth + 1) item ++ [])) :=
        ⟨_, _, _, spaces_newline _, spells_pretty (depth + 1) item hitems.1, .nil, rfl⟩
      exact ⟨_, _, hitem, by rw [prettyItems]; simp,
        Or.inr ⟨List.cons_ne_nil _ _, _, rfl, spells_prettyItems depth (next :: items) hitems.2⟩⟩

theorem spells_prettyFields (depth : Nat) (fields : List (Option String × Json)) (hfields : ExactFields fields) :
    SpellsFields fields (prettyFields depth fields) := by
  match fields with
  | [] => exact ⟨[], .nil, by rw [prettyFields]; rfl⟩
  | [(some key, value)] =>
      have hvalue : Padded (Spells value) ([' '] ++ (pretty (depth + 1) value ++ newline depth)) :=
        ⟨_, _, _, spaces_blank, spells_pretty (depth + 1) value hfields.2.1, spaces_newline _, rfl⟩
      exact ⟨_, _, ['}'], padded_key (depth + 1) key, hvalue, by rw [prettyFields]; simp, Or.inl ⟨rfl, rfl⟩⟩
  | (some key, value) :: next :: fields =>
      have hvalue : Padded (Spells value) ([' '] ++ (pretty (depth + 1) value ++ [])) :=
        ⟨_, _, _, spaces_blank, spells_pretty (depth + 1) value hfields.2.1, .nil, rfl⟩
      exact ⟨_, _, _, padded_key (depth + 1) key, hvalue, by rw [prettyFields]; simp,
        Or.inr ⟨List.cons_ne_nil _ _, _, rfl, spells_prettyFields depth (next :: fields) hfields.2.2⟩⟩

end

/-- The indented text of a document is that document. -/
theorem isDocument_pretty {j : Json} (hj : Exact j) : IsDocument (prettyText j).toList j := by
  rw [prettyText, String.toList_ofList]
  exact .of (spells_pretty 0 j hj)

/-! Lines -/

mutual

/-- A document is written on one line. -/
theorem newline_not_mem_compact (j : Json) (hj : Exact j) : '\n' ∉ compact j := by
  match j with
  | .null => decide
  | .bool true => decide
  | .bool false => decide
  | .number n => exact newline_not_mem_writeNumeral hj
  | .string s => exact newline_not_mem_writeLiteral s
  | .array items =>
      rw [compact, List.mem_cons]
      exact not_or_intro (by decide) (newline_not_mem_compactItems items hj)
  | .object fields =>
      rw [compact, List.mem_cons]
      exact not_or_intro (by decide) (newline_not_mem_compactFields fields hj)

theorem newline_not_mem_compactItems (items : List Json) (hitems : ExactItems items) :
    '\n' ∉ compactItems items := by
  match items with
  | [] => decide
  | [item] => simp [compactItems, newline_not_mem_compact item hitems.1]
  | item :: next :: items =>
      simp [compactItems_cons, newline_not_mem_compact item hitems.1,
        newline_not_mem_compactItems (next :: items) hitems.2]

theorem newline_not_mem_compactFields (fields : List (Option String × Json)) (hfields : ExactFields fields) :
    '\n' ∉ compactFields fields := by
  match fields with
  | [] => decide
  | [(key, value)] =>
      simp [compactFields, newline_not_mem_writeLiteral key, newline_not_mem_compact value hfields.2.1]
  | (key, value) :: next :: fields =>
      simp [compactFields_cons, newline_not_mem_writeLiteral key, newline_not_mem_compact value hfields.2.1,
        newline_not_mem_compactFields (next :: fields) hfields.2.2]

end

/-! Documents that lose nothing -/

theorem Exact.text (s : String) : Exact (text s) := rfl

theorem Exact.ofNat (n : Nat) : Exact (ofNat n) := fun _ hd => nomatch hd

theorem Exact.ofInt (n : Int) : Exact (ofInt n) := fun _ hd => nomatch hd

theorem Exact.array {items : List Json} (hitems : ∀ item ∈ items, Exact item) : Exact (.array items) := by
  have hall : ExactItems items := by
    induction items with
    | nil => trivial
    | cons item items ih =>
        exact ⟨hitems item List.mem_cons_self, ih fun other h => hitems other (List.mem_cons_of_mem item h)⟩
  exact hall

theorem Exact.record {fields : List (String × Json)} (hfields : ∀ f ∈ fields, Exact f.2) :
    Exact (record fields) := by
  have hall : ExactFields (fields.map fun f => (some f.1, f.2)) := by
    induction fields with
    | nil => trivial
    | cons f fields ih =>
        exact ⟨rfl, hfields f List.mem_cons_self, ih fun g hg => hfields g (List.mem_cons_of_mem f hg)⟩
  exact hall

theorem Exact.optional {α : Type} {f : α → Json} (hf : ∀ a, Exact (f a)) (o : Option α) :
    Exact (optional f o) := by
  cases o with
  | none => trivial
  | some a => exact hf a

end ContentProbe.Json
