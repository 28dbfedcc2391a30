import ContentProbe.Json.Writer
import ContentProbe.Proofs.Json.Grammar

/-!
Literals. The reader reads the literals of the grammar and nothing else. A literal that was written is one of them:
a character comes back as itself, be it written as it is, with a letter, or with four digits; and since control
characters are escaped, no literal holds a line break.
-/

namespace ContentProbe.Json

open ContentProbe.Text

/-! Pieces -/

theorem escaped?_eq_some_iff {letter c : Char} : escaped? letter = some c ↔ (letter, c) ∈ letters := by
  constructor
  · intro h
    unfold escaped? at h
    split at h
    all_goals first | (obtain rfl := Option.some.inj h; decide) | cases h
  · have hall : ∀ entry ∈ letters, escaped? entry.1 = some entry.2 := by decide
    exact hall (letter, c)

/-- A character that stands for itself is read as itself. -/
theorem readPieces_plain {c : Char} (hquote : c ≠ '"') (hbackslash : c ≠ '\\') (hcontrol : 0x20 ≤ c.toNat)
    (cs : List Char) :
    readPieces (c :: cs) = (readPieces cs).map fun (pieces, rest) => (.char c :: pieces, rest) := by
  rw [readPieces.eq_5 c cs hquote (fun _ _ _ _ _ heq => absurd heq hbackslash) fun _ _ heq => absurd heq hbackslash,
    if_neg (not_or_intro (Nat.not_lt.mpr hcontrol) hbackslash)]
  cases readPieces cs <;> rfl

/-- A letter after a backslash is read as the character that it stands for. -/
theorem readPieces_letter {letter c : Char} (h : (letter, c) ∈ letters) (cs : List Char) :
    readPieces ('\\' :: letter :: cs) =
      (readPieces cs).map fun (pieces, rest) => (.char c :: pieces, rest) := by
  have hread : escaped? letter = some c := escaped?_eq_some_iff.mpr h
  have hletter : letter ≠ 'u' := by
    rintro rfl
    cases hread
  rw [readPieces.eq_4 letter cs fun _ _ _ _ _ heq => absurd heq hletter, hread]
  cases readPieces cs <;> rfl

/-- Four digits after a backslash and a letter are read as the unit that they denote. -/
theorem readPieces_digits {ds : List Char} {n : Nat} (hlength : ds.length = 4) (h : Denotes 16 ds n)
    (cs : List Char) :
    readPieces ('\\' :: 'u' :: ds ++ cs) =
      (readPieces cs).map fun (pieces, rest) => (.unit n :: pieces, rest) := by
  obtain ⟨a, b, c, d, rfl⟩ := List.length_eq_four.mp hlength
  obtain ⟨values, hvalues, rfl⟩ :=
    Option.map_eq_some_iff.mp ((map_ofDigits_eq_some_iff fun _ _ => hexDigit?_eq_some_iff).mpr h)
  change readPieces ('\\' :: 'u' :: a :: b :: c :: d :: cs) = _
  rw [readPieces.eq_3, hvalues]
  cases readPieces cs <;> rfl

theorem readPieces_piece {text : List Char} {piece : Piece} (h : PieceText text piece) (cs : List Char) :
    readPieces (text ++ cs) = (readPieces cs).map fun (pieces, rest) => (piece :: pieces, rest) := by
  cases h with
  | plain hquote hbackslash hcontrol => exact readPieces_plain hquote hbackslash hcontrol cs
  | letter hletter => exact readPieces_letter hletter cs
  | digits hlength hdenotes => exact readPieces_digits hlength hdenotes cs

theorem readPieces_of_text {text : List Char} {pieces : List Piece} (h : PiecesText text pieces) (cs : List Char) :
    readPieces (text ++ '"' :: cs) = some (pieces, cs) := by
  induction h with
  | nil => rfl
  | cons hpiece _ ih => rw [List.append_assoc, readPieces_piece hpiece, ih, Option.map_some]

/-- Where the reader goes on there is a closing quote or a piece. -/
theorem quote_or_piece_of_readPieces {cs : List Char} (h : readPieces cs ≠ none) :
    (∃ rest, cs = '"' :: rest) ∨ ∃ text piece rest, PieceText text piece ∧ cs = text ++ rest := by
  induction cs using readPieces.fun_cases with
  | case1 => exact absurd readPieces_nil h
  | case2 rest => exact Or.inl ⟨rest, rfl⟩
  | case3 a b c d rest =>
      rw [readPieces.eq_3] at h
      cases hds : [a, b, c, d].mapM hexDigit? with
      | none => exact absurd (by rw [hds]; rfl) h
      | some ds =>
          have hdenotes : Denotes 16 [a, b, c, d] (ofDigits 16 ds) :=
            (map_ofDigits_eq_some_iff fun _ _ => hexDigit?_eq_some_iff).mp (by rw [hds, Option.map_some])
          exact Or.inr ⟨_, _, rest, .digits rfl hdenotes, rfl⟩
  | case4 letter rest hletter =>
      rw [readPieces.eq_4 letter rest hletter] at h
      cases hread : escaped? letter with
      | none => exact absurd (by rw [hread]; rfl) h
      | some c => exact Or.inr ⟨_, _, rest, .letter (escaped?_eq_some_iff.mp hread), rfl⟩
  | case5 c rest hquote hdigits hletter hcontrol =>
      rw [readPieces.eq_5 c rest hquote hdigits hletter, if_pos hcontrol] at h
      exact absurd rfl h
  | case6 c rest hquote _ _ hplain =>
      obtain ⟨hcontrol, hbackslash⟩ := not_or.mp hplain
      exact Or.inr ⟨[c], .char c, rest, .plain hquote hbackslash (Nat.not_lt.mp hcontrol), rfl⟩

theorem text_of_readPieces {cs rest : List Char} {pieces : List Piece} (h : readPieces cs = some (pieces, rest)) :
    ∃ text, PiecesText text pieces ∧ cs = text ++ '"' :: rest := by
  induction pieces generalizing cs with
  | nil =>
      rcases quote_or_piece_of_readPieces (by rw [h]; exact Option.some_ne_none _) with
        ⟨later, rfl⟩ | ⟨text, piece, later, hpiece, rfl⟩
      · cases h
        exact ⟨[], .nil, rfl⟩
      · rw [readPieces_piece hpiece] at h
        obtain ⟨_, -, heq⟩ := Option.map_eq_some_iff.mp h
        cases heq
  | cons piece pieces ih =>
      rcases quote_or_piece_of_readPieces (by rw [h]; exact Option.some_ne_none _) with
        ⟨later, rfl⟩ | ⟨text, piece, later, hpiece, rfl⟩
      · cases h
      · rw [readPieces_piece hpiece] at h
        obtain ⟨⟨_, _⟩, hlater, heq⟩ := Option.map_eq_some_iff.mp h
        cases heq
        obtain ⟨more, hmore, rfl⟩ := ih hlater
        exact ⟨text ++ more, .cons hpiece hmore, (List.append_assoc ..).symm⟩

theorem readPieces_eq_some_iff {cs rest : List Char} {pieces : List Piece} :
    readPieces cs = some (pieces, rest) ↔ ∃ text, PiecesText text pieces ∧ cs = text ++ '"' :: rest := by
  constructor
  · exact text_of_readPieces
  · rintro ⟨text, htext, rfl⟩
    exact readPieces_of_text htext rest

/-! What pieces mean -/

theorem lt_of_piecesText {text : List Char} {pieces : List Piece} (h : PiecesText text pieces) :
    ∀ n, .unit n ∈ pieces → n < 0x10000 := by
  induction h with
  | nil => exact fun _ hmem => nomatch hmem
  | cons hpiece _ ih =>
      intro n hmem
      rcases List.mem_cons.mp hmem with rfl | hmem
      · cases hpiece with
        | digits hlength hdenotes =>
            have hlt := hdenotes.lt
            rwa [hlength] at hlt
      · exact ih n hmem

/-- No character has the number of a surrogate. -/
theorem not_surrogate (c : Char) : ¬isHighSurrogate c.toNat = true ∧ ¬isLowSurrogate c.toNat = true := by
  have hvalid : c.toNat < 0xd800 ∨ 0xdfff < c.toNat := c.valid.imp id And.left
  simp only [isHighSurrogate, isLowSurrogate, Bool.and_eq_true, decide_eq_true_eq]
  omega

theorem toNat_ofNat_of_isValidChar {n : Nat} (hn : n.isValidChar) : (Char.ofNat n).toNat = n := by
  rw [Char.ofNat, dif_pos hn]
  rfl

theorem toNat_ofNat_of_not_surrogate {n : Nat} (hn : n < 0x10000) (hhigh : ¬isHighSurrogate n = true)
    (hlow : ¬isLowSurrogate n = true) : (Char.ofNat n).toNat = n := by
  simp only [isHighSurrogate, isLowSurrogate, Bool.and_eq_true, decide_eq_true_eq] at hhigh hlow
  exact toNat_ofNat_of_isValidChar (by rw [Nat.isValidChar]; omega)

theorem piecesText?_unit (c : Char) (pieces : List Piece) :
    piecesText? (.unit c.toNat :: pieces) = (piecesText? pieces).map (c :: ·) := by
  obtain ⟨hhigh, hlow⟩ := not_surrogate c
  -- The definition looks at the next piece as well, which does not matter after such a unit.
  rw [piecesText?.eq_def]
  rcases pieces with _ | ⟨_ | _, rest⟩ <;> simp only [if_neg hhigh, if_neg hlow, Char.ofNat_toNat]

/-- Two units are a pair if they are halves of some number. -/
theorem surrogates_iff {high low : Nat} : isHighSurrogate high = true ∧ isLowSurrogate low = true ↔
    ∃ a < 0x400, ∃ b < 0x400, high = 0xd800 + a ∧ low = 0xdc00 + b := by
  simp only [isHighSurrogate, isLowSurrogate, Bool.and_eq_true, decide_eq_true_eq]
  constructor
  · intro h
    exact ⟨high - 0xd800, by omega, low - 0xdc00, by omega, by omega, by omega⟩
  · rintro ⟨a, ha, b, hb, rfl, rfl⟩
    omega

theorem pairChar_eq (a b : Nat) : pairChar (0xd800 + a) (0xdc00 + b) = Char.ofNat (0x10000 + a * 0x400 + b) := by
  rw [pairChar, Nat.add_sub_cancel_left, Nat.add_sub_cancel_left]

theorem piecesText?_eq_some_iff {pieces : List Piece} (hunits : ∀ n, .unit n ∈ pieces → n < 0x10000) {cs : List Char} :
    piecesText? pieces = some cs ↔ Means pieces cs := by
  constructor
  · intro h
    induction pieces using piecesText?.induct generalizing cs with
    | case1 =>
        cases h
        exact .nil
    | case2 c pieces ih =>
        obtain ⟨more, hmore, rfl⟩ := Option.map_eq_some_iff.mp h
        exact .char (ih (fun n hn => hunits n (List.mem_cons_of_mem _ hn)) hmore)
    | case3 high hhigh low pieces hlow ih =>
        rw [piecesText?, if_pos hhigh, if_pos hlow] at h
        obtain ⟨more, hmore, rfl⟩ := Option.map_eq_some_iff.mp h
        obtain ⟨a, ha, b, hb, rfl, rfl⟩ := surrogates_iff.mp ⟨hhigh, hlow⟩
        have hnumber : (Char.ofNat (0x10000 + a * 0x400 + b)).toNat = 0x10000 + a * 0x400 + b :=
          toNat_ofNat_of_isValidChar (by rw [Nat.isValidChar]; omega)
        rw [pairChar_eq]
        exact .pair ha hb hnumber
          (ih (fun n hn => hunits n (List.mem_cons_of_mem _ (List.mem_cons_of_mem _ hn))) hmore)
    | case4 high hhigh low pieces hlow =>
        rw [piecesText?, if_pos hhigh, if_neg hlow] at h
        cases h
    | case5 high pieces hhigh hpieces =>
        rw [piecesText?.eq_def] at h
        simp only [if_pos hhigh] at h
        cases h
    | case6 high pieces hhigh hlow =>
        rw [piecesText?.eq_def] at h
        simp only [if_neg hhigh, if_pos hlow] at h
        cases h
    | case7 n pieces hhigh hlow ih =>
        have hn := toNat_ofNat_of_not_surrogate (hunits n List.mem_cons_self) hhigh hlow
        rw [← hn, piecesText?_unit] at h
        obtain ⟨more, hmore, rfl⟩ := Option.map_eq_some_iff.mp h
        rw [← hn, Char.ofNat_toNat]
        exact .unit (ih (fun n hn => hunits n (List.mem_cons_of_mem _ hn)) hmore)
  · intro h
    clear hunits
    induction h with
    | nil => rfl
    | char _ ih => rw [piecesText?, ih, Option.map_some]
    | unit _ ih => rw [piecesText?_unit, ih, Option.map_some]
    | pair ha hb hc _ ih =>
        obtain ⟨hhigh, hlow⟩ := surrogates_iff.mpr ⟨_, ha, _, hb, rfl, rfl⟩
        rw [piecesText?, if_pos hhigh, if_pos hlow, ih, Option.map_some, pairChar_eq, ← hc, Char.ofNat_toNat]

theorem LiteralText.head {cs : List Char} {s : Option String} (h : LiteralText cs s) : ∃ more, cs = '"' :: more := by
  obtain ⟨_, _, rfl, -⟩ := h
  exact ⟨_, rfl⟩

/-- The literals that are read, behind their opening quote, are those of the grammar. -/
theorem readLiteral_eq_some_iff {cs rest : List Char} {s : Option String} :
    readLiteral cs = some (s, rest) ↔ ∃ text, LiteralText text s ∧ '"' :: cs = text ++ rest := by
  have hmeans {text : List Char} {pieces : List Piece} (htext : PiecesText text pieces) :
      (piecesText? pieces).map String.ofList = s ↔ ∀ t, s = some t ↔ Means pieces t.toList := by
    have hsome (t : String) : (piecesText? pieces).map String.ofList = some t ↔ Means pieces t.toList := by
      rw [← piecesText?_eq_some_iff (lt_of_piecesText htext), Option.map_eq_some_iff]
      constructor
      · rintro ⟨cs, hcs, rfl⟩
        rw [hcs, String.toList_ofList]
      · exact fun h => ⟨t.toList, h, String.ofList_toList⟩
    constructor
    · rintro rfl
      exact hsome
    · exact fun h => Option.ext fun t => (hsome t).trans (h t).symm
  constructor
  · intro h
    obtain ⟨⟨pieces, _⟩, hpieces, heq⟩ := Option.bind_eq_some_iff.mp h
    obtain ⟨rfl, rfl⟩ := Prod.mk.inj (Option.some.inj heq)
    obtain ⟨text, htext, rfl⟩ := readPieces_eq_some_iff.mp hpieces
    exact ⟨_, ⟨text, pieces, rfl, htext, (hmeans htext).mp rfl⟩, by simp⟩
  · rintro ⟨_, ⟨text, pieces, rfl, htext, hs⟩, heq⟩
    obtain rfl : cs = text ++ '"' :: rest := by simpa using heq
    rw [readLiteral, readPieces_of_text htext]
    exact congrArg some (Prod.ext ((hmeans htext).mpr hs) rfl)

/-! Literals that are written -/

theorem pieceText_escapeChar (c : Char) :
    ∃ piece, PieceText (escapeChar c) piece ∧ (piece = .char c ∨ piece = .unit c.toNat) := by
  unfold escapeChar
  split
  · exact ⟨_, .letter (by decide), Or.inl rfl⟩
  · exact ⟨_, .letter (by decide), Or.inl rfl⟩
  · exact ⟨_, .letter (by decide), Or.inl rfl⟩
  · exact ⟨_, .letter (by decide), Or.inl rfl⟩
  · exact ⟨_, .letter (by decide), Or.inl rfl⟩
  · exact ⟨_, .letter (by decide), Or.inl rfl⟩
  · exact ⟨_, .letter (by decide), Or.inl rfl⟩
  · rename_i hquote hbackslash _ _ _ _ _
    split_ifs with hcontrol
    · exact ⟨_, .digits (length_hexText 4 _) (denotes_hexText (by omega)), Or.inr rfl⟩
    · exact ⟨_, .plain hquote hbackslash (Nat.not_lt.mp hcontrol), Or.inl rfl⟩

/-- The characters that are written are pieces that mean them. -/
theorem piecesText_escaped (cs : List Char) :
    ∃ pieces, PiecesText (cs.flatMap escapeChar) pieces ∧ Means pieces cs := by
  induction cs with
  | nil => exact ⟨[], .nil, .nil⟩
  | cons c cs ih =>
      obtain ⟨pieces, htext, hmeans⟩ := ih
      obtain ⟨piece, hpiece, rfl | rfl⟩ := pieceText_escapeChar c
      · exact ⟨_, .cons hpiece htext, .char hmeans⟩
      · exact ⟨_, .cons hpiece htext, .unit hmeans⟩

/-- Pieces mean one text at most. -/
theorem Means.unique {text : List Char} {pieces : List Piece} (htext : PiecesText text pieces) {cs cs' : List Char}
    (h : Means pieces cs) (h' : Means pieces cs') : cs = cs' := by
  rw [← piecesText?_eq_some_iff (lt_of_piecesText htext)] at h h'
  exact Option.some.inj (h.symm.trans h')

theorem literalText_writeLiteral (s : String) : LiteralText (writeLiteral (some s)) (some s) := by
  obtain ⟨pieces, htext, hmeans⟩ := piecesText_escaped s.toList
  refine ⟨_, pieces, rfl, htext, fun t => ⟨?_, fun h => ?_⟩⟩
  · rintro ⟨⟩
    exact hmeans
  · rw [← String.toList_inj.mp (hmeans.unique htext h)]

/-- A literal that was written is read as its text, whatever follows it. -/
theorem readText_writeLiteral (s : String) (cs : List Char) :
    readText (writeLiteral (some s) ++ cs) = some (s, cs) := by
  obtain ⟨more, hmore⟩ : ∃ more, writeLiteral (some s) = '"' :: more := ⟨_, rfl⟩
  have hread : readLiteral (more ++ cs) = some (some s, cs) :=
    readLiteral_eq_some_iff.mpr ⟨_, literalText_writeLiteral s, by rw [hmore, List.cons_append]⟩
  rw [hmore, List.cons_append, readText, hread]
  rfl

theorem newline_not_mem_hexText (count n : Nat) : '\n' ∉ hexText count n := by
  intro hmem
  obtain ⟨d, hd, heq⟩ := List.mem_map.mp hmem
  have hdigit := hexDigit?_hexChar (lt_of_mem_digitsFixed (by decide) hd)
  rw [heq] at hdigit
  cases hdigit

/-- Line breaks are escaped. -/
theorem newline_not_mem_writeLiteral (s : Option String) : '\n' ∉ writeLiteral s := by
  have hescape (c : Char) : '\n' ∉ escapeChar c := by
    unfold escapeChar
    split
    all_goals first | decide | skip
    rename_i hnewline _ _
    split
    · simp [newline_not_mem_hexText]
    · simpa using fun h => hnewline h.symm
  simp [writeLiteral, quote, hescape]

end ContentProbe.Json
