import ContentProbe.Text.Lines

/-!
The lines of a text, said without splitting it: each line is what stands before a line feed, less a carriage return
before it, and what follows the last line feed is a line if there is anything. Every text has its lines, and no two
lists of them.
-/

namespace ContentProbe.Text

/-- The text has the lines. A carriage return belongs to its line unless a line feed follows it. -/
inductive Lined : List Char → List (List Char) → Prop where
  | nil : Lined [] []
  | last {line : List Char} (hfeed : '\n' ∉ line) (hne : line ≠ []) : Lined line [line]
  | feed {line rest : List Char} {lines : List (List Char)} (hfeed : '\n' ∉ line)
      (hreturn : line.getLast? ≠ some '\r') (h : Lined rest lines) : Lined (line ++ '\n' :: rest) (line :: lines)
  | returnFeed {line rest : List Char} {lines : List (List Char)} (hfeed : '\n' ∉ line) (h : Lined rest lines) :
      Lined (line ++ '\r' :: '\n' :: rest) (line :: lines)

theorem splitLines_last {line : List Char} (hfeed : '\n' ∉ line) (hne : line ≠ []) : splitLines line = [line] := by
  have hempty : ¬line.isEmpty = true := fun h => hne (List.isEmpty_iff.mp h)
  rw [splitLines, List.splitOn_eq_singleton hfeed]
  simp [hempty]

theorem splitLines_feed {line : List Char} (hfeed : '\n' ∉ line) (rest : List Char) :
    splitLines (line ++ '\n' :: rest) = withoutReturn line :: splitLines rest := by
  obtain ⟨part, parts, hparts⟩ := List.exists_cons_of_ne_nil (List.splitOn_ne_nil '\n' rest)
  rw [splitLines, splitLines, List.splitOn_append_cons_self_of_not_mem hfeed, hparts]
  rfl

theorem withoutReturn_of_none {line : List Char} (h : line.getLast? ≠ some '\r') : withoutReturn line = line :=
  if_neg h

theorem withoutReturn_append (line : List Char) : withoutReturn (line ++ ['\r']) = line := by
  rw [withoutReturn, if_pos List.getLast?_concat, List.dropLast_concat]

theorem Lined.eq {cs : List Char} {lines : List (List Char)} (h : Lined cs lines) : lines = splitLines cs := by
  induction h with
  | nil => rfl
  | last hfeed hne => rw [splitLines_last hfeed hne]
  | feed hfeed hreturn _ ih => rw [splitLines_feed hfeed, withoutReturn_of_none hreturn, ih]
  | @returnFeed line rest lines hfeed _ ih =>
      have hfeed' : '\n' ∉ line ++ ['\r'] := by
        rw [List.mem_append, not_or]
        exact ⟨hfeed, by decide⟩
      have htext : line ++ '\r' :: '\n' :: rest = (line ++ ['\r']) ++ '\n' :: rest := by
        rw [List.append_assoc, List.singleton_append]
      rw [htext, splitLines_feed hfeed', withoutReturn_append, ih]

/-- A line that is ended by a feed, with or without a return before it. -/
theorem Lined.ended {line rest : List Char} {lines : List (List Char)} (hfeed : '\n' ∉ line) (h : Lined rest lines) :
    Lined (line ++ '\n' :: rest) (withoutReturn line :: lines) := by
  by_cases hreturn : line.getLast? = some '\r'
  · obtain ⟨before, rfl⟩ := List.getLast?_eq_some_iff.mp hreturn
    rw [withoutReturn_append, List.append_assoc, List.singleton_append]
    exact .returnFeed (fun hmem => hfeed (List.mem_append_left _ hmem)) h
  · rw [withoutReturn_of_none hreturn]
    exact .feed hfeed hreturn h

theorem lined_splitLines (cs : List Char) : Lined cs (splitLines cs) := by
  -- By the number of characters, since a line is taken off at a time.
  induction hlength : cs.length using Nat.strongRecOn generalizing cs with
  | _ count ih =>
    by_cases hfeed : '\n' ∈ cs
    · obtain ⟨line, rest, rfl, hline⟩ := List.eq_append_cons_of_mem hfeed
      have hrest : rest.length < count := by
        rw [← hlength, List.length_append, List.length_cons]
        omega
      rw [splitLines_feed hline]
      exact .ended hline (ih _ hrest rest rfl)
    · by_cases hne : cs = []
      · subst hne
        exact .nil
      · rw [splitLines_last hfeed hne]
        exact .last hfeed hne

end ContentProbe.Text
