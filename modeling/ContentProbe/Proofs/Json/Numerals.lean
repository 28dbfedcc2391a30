import ContentProbe.Json.Writer
import ContentProbe.Proofs.Json.Grammar

/-!
Numbers. The reader reads the numbers of the grammar, as long as nothing follows that could belong to a number, and
nothing else. A numeral that was written is one of them.
-/

namespace ContentProbe.Json

open ContentProbe.Text

/-- What follows a value could not belong to a number. -/
def Delimited (cs : List Char) : Prop :=
  ∀ c ∈ cs.head?, isDigit c = false ∧ c ≠ '.' ∧ c ≠ 'e' ∧ c ≠ 'E'

theorem Delimited.nil : Delimited [] := by simp [Delimited]

theorem Delimited.comma (cs : List Char) : Delimited (',' :: cs) := by
  simpa [Delimited] using (by decide : isDigit ',' = false)

theorem Delimited.bracket (cs : List Char) : Delimited (']' :: cs) := by
  simpa [Delimited] using (by decide : isDigit ']' = false)

theorem Delimited.brace (cs : List Char) : Delimited ('}' :: cs) := by
  simpa [Delimited] using (by decide : isDigit '}' = false)

/-! Digits -/

/-- No digit follows. -/
def Undigited (cs : List Char) : Prop := ∀ c ∈ cs.head?, isDigit c = false

theorem Delimited.undigited {cs : List Char} (h : Delimited cs) : Undigited cs := fun c hc => (h c hc).1

theorem isDigit_iff {c : Char} : isDigit c = true ↔ ∃ d, DigitOf 10 c d := by
  rw [isDigit, Option.isSome_iff_exists]
  exact exists_congr fun _ => digit?_eq_some_iff

theorem isDigit_of_digits {cs : List Char} {ds : List Nat} (h : List.Forall₂ (DigitOf 10) cs ds) :
    ∀ c ∈ cs, isDigit c = true := by
  induction h with
  | nil => simp
  | cons hc _ ih => exact List.forall_mem_cons.mpr ⟨isDigit_iff.mpr ⟨_, hc⟩, ih⟩

theorem filterMap_digit?_eq_iff {cs : List Char} (hcs : ∀ c ∈ cs, isDigit c = true) {ds : List Nat} :
    cs.filterMap digit? = ds ↔ List.Forall₂ (DigitOf 10) cs ds := by
  induction cs generalizing ds with
  | nil => simp [eq_comm]
  | cons c cs ih =>
      obtain ⟨hc, hcs⟩ := List.forall_mem_cons.mp hcs
      obtain ⟨d, hd⟩ := isDigit_iff.mp hc
      have hread : digit? c = some d := digit?_eq_some_iff.mpr hd
      rw [List.filterMap_cons_some hread, List.forall₂_cons_left_iff]
      constructor
      · rintro rfl
        exact ⟨d, _, hd, (ih hcs).mp rfl, rfl⟩
      · rintro ⟨e, more, he, hmore, rfl⟩
        rw [(ih hcs).mpr hmore, Option.some.inj (hread.symm.trans (digit?_eq_some_iff.mpr he))]

/-- Digits are read up to where no digit follows. -/
theorem readDigits_of_digits {text : List Char} {ds : List Nat} (h : List.Forall₂ (DigitOf 10) text ds)
    {cs : List Char} (hend : Undigited cs) : readDigits (text ++ cs) = (ds, cs) := by
  have hdigits := isDigit_of_digits h
  have hstop : cs.takeWhile isDigit = [] ∧ cs.dropWhile isDigit = cs := by
    cases cs with
    | nil => exact ⟨rfl, rfl⟩
    | cons c cs => simp [hend c rfl]
  rw [readDigits, List.takeWhile_append_of_pos hdigits, List.dropWhile_append_of_pos hdigits, hstop.1, hstop.2,
    List.append_nil, (filterMap_digit?_eq_iff hdigits).mpr h]

theorem digits_of_readDigits (cs : List Char) :
    ∃ text, List.Forall₂ (DigitOf 10) text (readDigits cs).1 ∧ cs = text ++ (readDigits cs).2 := by
  have hdigits : ∀ c ∈ cs.takeWhile isDigit, isDigit c = true := List.all_eq_true.mp List.all_takeWhile
  exact ⟨cs.takeWhile isDigit, (filterMap_digit?_eq_iff hdigits).mp rfl, List.takeWhile_append_dropWhile.symm⟩

/-- Digits as the parts of a number ask for them: one at least. -/
theorem denotes_of_readDigits {cs : List Char} (h : ¬(readDigits cs).1.isEmpty = true) :
    ∃ text, text ≠ [] ∧ Denotes 10 text (ofDigits 10 (readDigits cs).1) ∧ cs = text ++ (readDigits cs).2 := by
  obtain ⟨text, hdigits, hcs⟩ := digits_of_readDigits cs
  refine ⟨text, ?_, ⟨_, hdigits, (ofDigits_eq_ofDigits_reverse ..).symm⟩, hcs⟩
  rintro rfl
  exact h (List.isEmpty_iff.mpr (List.forall₂_nil_left_iff.mp hdigits))

theorem readDigits_of_denotes {text : List Char} {n : Nat} (hdenotes : Denotes 10 text n) (hne : text ≠ [])
    {cs : List Char} (hend : Undigited cs) :
    ∃ ds, readDigits (text ++ cs) = (ds, cs) ∧ List.Forall₂ (DigitOf 10) text ds ∧ ds ≠ [] ∧ ofDigits 10 ds = n := by
  obtain ⟨ds, hdigits, rfl⟩ := hdenotes
  refine ⟨ds, readDigits_of_digits hdigits hend, hdigits, ?_, ofDigits_eq_ofDigits_reverse ..⟩
  rintro rfl
  exact hne (List.forall₂_nil_right_iff.mp hdigits)

/-! Whole parts -/

theorem digitOf_zero_iff {c : Char} : DigitOf 10 c 0 ↔ c = '0' := by
  constructor
  · rintro ⟨-, h | h⟩
    · exact (Option.some.inj h).symm
    · exact (Option.some.inj h).symm
  · rintro rfl
    exact digit?_eq_some_iff.mp rfl

/-- A needless zero is seen at the digits as it is at the characters. -/
theorem leadingZero_iff {cs : List Char} {ds : List Nat} (h : List.Forall₂ (DigitOf 10) cs ds) :
    (1 < ds.length ∧ ds.head? = some 0) ↔ cs.head? = some '0' ∧ cs ≠ ['0'] := by
  cases h with
  | nil => simp
  | cons hc hmore =>
      rename_i c d cs ds
      have hzero : d = 0 ↔ c = '0' := by
        constructor
        · rintro rfl
          exact digitOf_zero_iff.mp hc
        · rintro rfl
          exact Option.some.inj ((digit?_eq_some_iff.mpr hc).symm.trans rfl)
      have hlength : 1 < (d :: ds).length ↔ cs ≠ [] := by
        rw [List.length_cons, ← hmore.length_eq, Nat.lt_add_left_iff_pos, List.length_pos_iff]
      rw [hlength, List.head?_cons, List.head?_cons, Option.some.injEq, Option.some.injEq, hzero, and_comm]
      refine and_congr_right fun hc => not_congr ?_
      rw [hc, List.cons.injEq, eq_self_iff_true, true_and]

/-! Fractions -/

/-- What follows the whole part could not belong to it or begin a fraction. -/
def Pointless (cs : List Char) : Prop := ∀ c ∈ cs.head?, isDigit c = false ∧ c ≠ '.'

theorem readFraction_of_text {text : List Char} {ds : List Nat} (h : FractionText text ds) {cs : List Char}
    (hend : Pointless cs) : readFraction (text ++ cs) = some (ds, cs) := by
  cases h with
  | none =>
      rw [List.nil_append]
      unfold readFraction
      split
      · exact absurd rfl (hend '.' rfl).2
      · rfl
  | digits hdigits hds =>
      rw [List.cons_append, readFraction, readDigits_of_digits hdigits fun c hc => (hend c hc).1]
      exact if_neg fun h => hds (List.isEmpty_iff.mp h)

theorem text_of_readFraction {cs rest : List Char} {ds : List Nat} (h : readFraction cs = some (ds, rest)) :
    ∃ text, FractionText text ds ∧ cs = text ++ rest := by
  unfold readFraction at h
  split at h
  · rename_i more
    obtain ⟨hds, heq⟩ := Option.ite_none_left_eq_some.mp h
    obtain ⟨text, hdigits, hmore⟩ := digits_of_readDigits more
    cases heq
    exact ⟨'.' :: text, .digits hdigits fun h => hds (List.isEmpty_iff.mpr h), congrArg ('.' :: ·) hmore⟩
  · cases h
    exact ⟨[], .none, rfl⟩

/-! Exponents -/

theorem readExponent_of_text {text : List Char} {exponent : Option Int} (h : ExponentText text exponent)
    {cs : List Char} (hend : Delimited cs) : readExponent (text ++ cs) = some (exponent, cs) := by
  cases h with
  | none =>
      cases cs with
      | nil => rfl
      | cons c cs =>
          obtain ⟨-, -, hlower, hupper⟩ := hend c rfl
          simp [readExponent, hlower, hupper]
  | positive hletter hsign hdenotes hne =>
      obtain ⟨ds, hread, hdigits, hds, hvalue⟩ := readDigits_of_denotes hdenotes hne hend.undigited
      rcases hsign with rfl | rfl
      · -- The first digit is no sign.
        obtain ⟨d, ds, rfl⟩ := List.exists_cons_of_ne_nil hds
        obtain ⟨c, more, hc, -, rfl⟩ := List.forall₂_cons_right_iff.mp hdigits
        have hsign (sign : Char) (hnot : digit? sign = none) : c ≠ sign := by
          rintro rfl
          rw [digit?_eq_some_iff.mpr hc] at hnot
          cases hnot
        simp only [List.cons_append, List.nil_append] at hread ⊢
        simp only [readExponent, hletter, if_true]
        split
        · rename_i heq
          exact absurd (List.cons.inj heq).1 (hsign '-' rfl)
        · rename_i heq
          exact absurd (List.cons.inj heq).1 (hsign '+' rfl)
        · simp [hread, hvalue]
      · simp [readExponent, hletter, hread, hds, hvalue]
  | negative hletter hdenotes hne =>
      obtain ⟨ds, hread, -, hds, hvalue⟩ := readDigits_of_denotes hdenotes hne hend.undigited
      simp [readExponent, hletter, hread, hds, hvalue]

theorem text_of_readExponent {cs rest : List Char} {exponent : Option Int}
    (h : readExponent cs = some (exponent, rest)) : ∃ text, ExponentText text exponent ∧ cs = text ++ rest := by
  cases cs with
  | nil =>
      cases h
      exact ⟨[], .none, rfl⟩
  | cons letter cs =>
      simp only [readExponent] at h
      by_cases hletter : letter = 'e' ∨ letter = 'E'
      · rw [if_pos hletter] at h
        split at h
        · rename_i more
          obtain ⟨hds, heq⟩ := Option.ite_none_left_eq_some.mp h
          obtain ⟨text, hne, hdenotes, hmore⟩ := denotes_of_readDigits hds
          cases heq
          exact ⟨_, .negative hletter hdenotes hne, congrArg (letter :: '-' :: ·) hmore⟩
        · rename_i more
          obtain ⟨hds, heq⟩ := Option.ite_none_left_eq_some.mp h
          obtain ⟨text, hne, hdenotes, hmore⟩ := denotes_of_readDigits hds
          cases heq
          exact ⟨_, .positive hletter (Or.inr rfl) hdenotes hne, congrArg (letter :: '+' :: ·) hmore⟩
        · obtain ⟨hds, heq⟩ := Option.ite_none_left_eq_some.mp h
          obtain ⟨text, hne, hdenotes, hmore⟩ := denotes_of_readDigits hds
          cases heq
          exact ⟨_, .positive hletter (Or.inl rfl) hdenotes hne, congrArg (letter :: ·) hmore⟩
      · rw [if_neg hletter] at h
        cases h
        exact ⟨[], .none, rfl⟩

/-! Numbers -/

theorem ExponentText.pointless {text : List Char} {exponent : Option Int} (h : ExponentText text exponent)
    {cs : List Char} (hend : Delimited cs) : Pointless (text ++ cs) := by
  have hletter {letter : Char} (h : letter = 'e' ∨ letter = 'E') : isDigit letter = false ∧ letter ≠ '.' := by
    rcases h with rfl | rfl <;> decide
  cases h with
  | none => exact fun c hc => ⟨(hend c hc).1, (hend c hc).2.1⟩
  | positive h =>
      rintro c ⟨⟩
      exact hletter h
  | negative h =>
      rintro c ⟨⟩
      exact hletter h

theorem FractionText.undigited {text : List Char} {ds : List Nat} (h : FractionText text ds) {cs : List Char}
    (hend : Pointless cs) : Undigited (text ++ cs) := by
  cases h with
  | none => exact fun c hc => (hend c hc).1
  | digits =>
      rintro c ⟨⟩
      rfl

/-- The whole part, the fraction and the exponent, after the sign. -/
theorem readUnsigned_of_text (n : Numeral) {whole fraction exponent cs : List Char} (hwhole : WholeText whole n.whole)
    (hfraction : FractionText fraction n.fraction) (hexponent : ExponentText exponent n.exponent)
    (hend : Delimited cs) :
    readUnsigned n.negative (whole ++ (fraction ++ (exponent ++ cs))) = some (n, cs) := by
  have hpointless : Pointless (exponent ++ cs) := hexponent.pointless hend
  obtain ⟨ds, hread, hdigits, hds, hvalue⟩ :=
    readDigits_of_denotes hwhole.denotes hwhole.nonempty (hfraction.undigited hpointless)
  have hguard : ¬(ds.isEmpty = true ∨ (1 < ds.length ∧ ds.head? = some 0)) := by
    rw [leadingZero_iff hdigits, List.isEmpty_iff]
    exact not_or_intro hds fun h => h.2 (hwhole.noZero h.1)
  rw [readUnsigned, hread]
  dsimp only
  rw [if_neg hguard, readFraction_of_text hfraction hpointless]
  simp only [Option.bind_eq_bind, Option.bind_some, readExponent_of_text hexponent hend, hvalue]
  rfl

theorem text_of_readUnsigned {negative : Bool} {cs rest : List Char} {n : Numeral}
    (h : readUnsigned negative cs = some (n, rest)) :
    n.negative = negative ∧ ∃ whole fraction exponent, WholeText whole n.whole ∧ FractionText fraction n.fraction ∧
      ExponentText exponent n.exponent ∧ cs = whole ++ (fraction ++ (exponent ++ rest)) := by
  rw [readUnsigned] at h
  dsimp only at h
  split_ifs at h with hguard
  · cases h
  · obtain ⟨hempty, hzero⟩ := not_or.mp hguard
    obtain ⟨⟨ds, afterFraction⟩, hfraction, h⟩ := Option.bind_eq_some_iff.mp h
    obtain ⟨⟨exponent, _⟩, hexponent, h⟩ := Option.bind_eq_some_iff.mp h
    cases h
    obtain ⟨whole, hdigits, hcs⟩ := digits_of_readDigits cs
    rw [leadingZero_iff hdigits] at hzero
    have hne : whole ≠ [] := by
      rintro rfl
      exact hempty (List.isEmpty_iff.mpr (List.forall₂_nil_left_iff.mp hdigits))
    obtain ⟨fractionText, hfractionText, hafter⟩ := text_of_readFraction hfraction
    obtain ⟨exponentText, hexponentText, rfl⟩ := text_of_readExponent hexponent
    rw [hafter] at hcs
    refine ⟨rfl, whole, fractionText, exponentText,
      ⟨⟨_, hdigits, (ofDigits_eq_ofDigits_reverse ..).symm⟩, hne, ?_⟩, hfractionText, hexponentText, hcs⟩
    exact fun hhead => not_not.mp fun hlong => hzero ⟨hhead, hlong⟩

theorem WholeText.head {cs : List Char} {n : Nat} (h : WholeText cs n) :
    ∃ c more, cs = c :: more ∧ isDigit c = true := by
  obtain ⟨ds, hdigits, -⟩ := h.denotes
  obtain ⟨c, more, rfl⟩ := List.exists_cons_of_ne_nil h.nonempty
  exact ⟨c, more, rfl, isDigit_of_digits hdigits c List.mem_cons_self⟩

/-- A number begins with its sign or with a digit. -/
theorem head_of_sign_whole {sign whole : List Char} {negative : Bool} {n : Nat} (hsign : SignText sign negative)
    (hwhole : WholeText whole n) (cs : List Char) :
    ∃ c more, sign ++ (whole ++ cs) = c :: more ∧ (c = '-' ∨ isDigit c = true) := by
  cases hsign with
  | minus => exact ⟨'-', _, rfl, Or.inl rfl⟩
  | none =>
      obtain ⟨c, more, rfl, hc⟩ := hwhole.head
      exact ⟨c, _, rfl, Or.inr hc⟩

theorem NumeralText.head {cs : List Char} {n : Numeral} (h : NumeralText cs n) :
    ∃ c more, cs = c :: more ∧ (c = '-' ∨ isDigit c = true) := by
  obtain ⟨sign, whole, fraction, exponent, rfl, hsign, hwhole, -, -⟩ := h
  exact head_of_sign_whole hsign hwhole (fraction ++ exponent)

theorem readNumeral_unsigned {c : Char} (hc : isDigit c = true) (cs : List Char) :
    readNumeral (c :: cs) = readUnsigned false (c :: cs) := by
  rw [readNumeral]
  intro rest heq
  rw [(List.cons.inj heq).1] at hc
  cases hc

theorem readNumeral_of_text {text : List Char} {n : Numeral} (h : NumeralText text n) {cs : List Char}
    (hend : Delimited cs) : readNumeral (text ++ cs) = some (n, cs) := by
  obtain ⟨sign, whole, fraction, exponent, rfl, hsign, hwhole, hfraction, hexponent⟩ := h
  have hread := readUnsigned_of_text n hwhole hfraction hexponent hend
  simp only [List.append_assoc]
  generalize n.negative = negative at hsign hread
  cases hsign with
  | minus => exact hread
  | none =>
      obtain ⟨c, more, rfl, hc⟩ := hwhole.head
      rw [List.nil_append, List.cons_append, readNumeral_unsigned hc]
      exact hread

theorem text_of_readNumeral {cs rest : List Char} {n : Numeral} (h : readNumeral cs = some (n, rest)) :
    ∃ text, NumeralText text n ∧ cs = text ++ rest := by
  have hparts {sign more : List Char} {negative : Bool} (hsign : SignText sign negative)
      (hread : readUnsigned negative more = some (n, rest)) :
      ∃ text, NumeralText text n ∧ sign ++ more = text ++ rest := by
    obtain ⟨rfl, whole, fraction, exponent, hwhole, hfraction, hexponent, rfl⟩ := text_of_readUnsigned hread
    exact ⟨_, ⟨sign, whole, fraction, exponent, rfl, hsign, hwhole, hfraction, hexponent⟩, by simp⟩
  unfold readNumeral at h
  split at h
  · exact hparts .minus h
  · exact hparts .none h

/-! Numbers that are written -/

theorem isDigit_hexChar {d : Nat} (hd : d < 10) : isDigit (hexChar d) = true := by
  simp [isDigit, digit?_hexChar hd]

theorem digits_hexChar {ds : List Nat} (hds : ∀ d ∈ ds, d < 10) : List.Forall₂ (DigitOf 10) (ds.map hexChar) ds :=
  List.forall₂_map_left_iff.mpr (List.forall₂_same.mpr fun d hd => digit?_eq_some_iff.mp (digit?_hexChar (hds d hd)))

theorem wholeText_natText (n : Nat) : WholeText (natText n) n := by
  obtain ⟨ds, htext, hds, hvalue, hne, hzero⟩ := natText_eq n
  have hdigits := digits_hexChar hds
  rw [htext]
  refine ⟨⟨ds, hdigits, ?_⟩, fun h => hne (List.map_eq_nil_iff.mp h), fun hhead => ?_⟩
  · rw [← ofDigits_eq_ofDigits_reverse, hvalue]
  · refine not_not.mp fun hlong => ?_
    obtain ⟨hlength, hhead⟩ := (leadingZero_iff hdigits).mpr ⟨hhead, hlong⟩
    rw [(hzero hhead).2] at hlength
    exact Nat.lt_irrefl 1 hlength

/-- The exponent that was written. -/
def exponentText : Option Int → List Char
  | none => []
  | some e => writeExponent e

theorem exponentText_exponentText (exponent : Option Int) : ExponentText (exponentText exponent) exponent := by
  cases exponent with
  | none => exact .none
  | some e =>
      rw [exponentText, writeExponent]
      cases e with
      | ofNat n =>
          have hn := wholeText_natText n
          rw [if_pos (by simp)]
          change ExponentText ('e' :: (['+'] ++ natText n)) (some n)
          exact .positive (Or.inl rfl) (Or.inr rfl) hn.denotes hn.nonempty
      | negSucc n =>
          have hn := wholeText_natText (n + 1)
          rw [if_neg (by omega)]
          exact .negative (Or.inl rfl) hn.denotes hn.nonempty

theorem writeNumeral_eq (n : Numeral) : writeNumeral n =
    (if n.negative then ['-'] else []) ++ (natText n.whole ++
      ((if n.fraction.isEmpty then [] else '.' :: n.fraction.map hexChar) ++ exponentText n.exponent)) := by
  cases hexponent : n.exponent <;> simp [writeNumeral, exponentText, hexponent]

theorem signText_sign (negative : Bool) : SignText (if negative then ['-'] else []) negative := by
  cases negative with
  | true => exact .minus
  | false => exact .none

theorem numeralText_writeNumeral {n : Numeral} (hfraction : ∀ d ∈ n.fraction, d < 10) :
    NumeralText (writeNumeral n) n := by
  refine ⟨_, _, _, _, writeNumeral_eq n, signText_sign _, wholeText_natText _, ?_, exponentText_exponentText _⟩
  split_ifs with hempty
  · rw [List.isEmpty_iff.mp hempty]
    exact .none
  · exact .digits (digits_hexChar hfraction) fun h => hempty (List.isEmpty_iff.mpr h)

theorem writeNumeral_head (n : Numeral) :
    ∃ c cs, writeNumeral n = c :: cs ∧ (c = '-' ∨ isDigit c = true) := by
  rw [writeNumeral_eq]
  exact head_of_sign_whole (signText_sign _) (wholeText_natText _) _

/-! Lines -/

theorem newline_not_mem_map {ds : List Nat} (hds : ∀ d ∈ ds, d < 10) : '\n' ∉ ds.map hexChar := by
  intro hmem
  obtain ⟨d, hd, heq⟩ := List.mem_map.mp hmem
  have hdigit := isDigit_hexChar (hds d hd)
  rw [heq] at hdigit
  exact absurd hdigit (by decide)

theorem newline_not_mem_natText (n : Nat) : '\n' ∉ natText n := by
  obtain ⟨ds, htext, hds, -⟩ := natText_eq n
  rw [htext]
  exact newline_not_mem_map hds

theorem newline_not_mem_exponentText (exponent : Option Int) : '\n' ∉ exponentText exponent := by
  cases exponent with
  | none => simp [exponentText]
  | some e =>
      rw [exponentText, writeExponent]
      cases e with
      | ofNat n =>
          rw [if_pos (by simp)]
          simp [intText, newline_not_mem_natText]
      | negSucc n =>
          rw [if_neg (by omega)]
          simp [intText, newline_not_mem_natText]

theorem newline_not_mem_writeNumeral {n : Numeral} (hn : ∀ d ∈ n.fraction, d < 10) :
    '\n' ∉ writeNumeral n := by
  have hfraction := newline_not_mem_map hn
  have hsign : '\n' ∉ if n.negative then ['-'] else [] := by
    split <;> decide
  have hpoint : '\n' ∉ if n.fraction.isEmpty then [] else '.' :: n.fraction.map hexChar := by
    split
    · exact List.not_mem_nil
    · exact List.not_mem_cons_of_ne_of_not_mem (by decide) hfraction
  rw [writeNumeral_eq]
  simp only [List.mem_append, not_or]
  exact ⟨hsign, newline_not_mem_natText n.whole, hpoint, newline_not_mem_exponentText n.exponent⟩

end ContentProbe.Json
