import ContentProbe.Record.Ledger
import Mathlib.Tactic.SplitIfs

/-!
Files of a directory and their texts: what one finds under a name after a file was created, appended to or replaced.
-/

namespace ContentProbe

namespace Directory

theorem text?_touch (d : Directory) (name other : String) :
    (d.touch name).text? other = if other = name then some ((d.text? name).getD "") else d.text? other := by
  rw [touch]
  split
  · rename_i hthere
    obtain ⟨t, ht⟩ := Option.isSome_iff_exists.mp hthere
    split
    · subst other
      rw [ht]
      rfl
    · rfl
  · rename_i hmissing
    have hnone : d.files.lookup name = none := Option.not_isSome_iff_eq_none.mp hmissing
    simp only [text?, List.lookup_append, List.lookup_singleton, beq_iff_eq]
    split
    · subst other
      rw [hnone]
      rfl
    · rw [Option.or_none]

theorem text?_touch_of_isSome {d : Directory} {other : String} (hthere : (d.text? other).isSome = true)
    (name : String) : (d.touch name).text? other = d.text? other := by
  obtain ⟨t, ht⟩ := Option.isSome_iff_exists.mp hthere
  rw [text?_touch]
  split
  · subst other
    rw [ht]
    rfl
  · rfl

/-- Creating a file changes no text. -/
theorem getD_touch (d : Directory) (name other : String) :
    ((d.touch name).text? other).getD "" = (d.text? other).getD "" := by
  rw [text?_touch]
  split
  · subst other
    rfl
  · rfl

theorem touch_trail (d : Directory) (name : String) : (d.touch name).trail = d.trail := by
  rw [touch]
  split <;> rfl

/-- Files whose text is changed keep their names. -/
theorem lookup_map_text (files : List (String × String)) (name : String) (change : String → String) (other : String) :
    (files.map fun (n, t) => if n = name then (n, change t) else (n, t)).lookup other =
      if other = name then (files.lookup name).map change else files.lookup other := by
  induction files with
  | nil => simp
  | cons file files ih =>
      obtain ⟨n, t⟩ := file
      by_cases hn : n = name
      · subst n
        by_cases hother : other = name
        · subst other
          simp
        · simpa [List.lookup_cons, hother, beq_eq_false_iff_ne.mpr hother] using ih
      · by_cases hother : other = n
        · subst other
          simp [hn]
        · simpa [List.lookup_cons, hn, beq_eq_false_iff_ne.mpr hother, beq_eq_false_iff_ne.mpr (Ne.symm hn)]
            using ih

theorem text?_append (d : Directory) (name text other : String) :
    (d.append name text).text? other =
      if other = name then (d.text? name).map (· ++ text) else d.text? other :=
  lookup_map_text d.files name (· ++ text) other

/-- Appending to a file neither makes nor removes one. -/
theorem isSome_append (d : Directory) (name text other : String) :
    ((d.append name text).text? other).isSome = (d.text? other).isSome := by
  rw [text?_append]
  split
  · subst other
    exact Option.isSome_map ..
  · rfl

/-- What is appended to a file that is there comes behind its text, and behind no other. -/
theorem getD_append {d : Directory} {name : String} (hthere : (d.text? name).isSome = true)
    (text other : String) :
    ((d.append name text).text? other).getD "" =
      (d.text? other).getD "" ++ if other = name then text else "" := by
  obtain ⟨t, ht⟩ := Option.isSome_iff_exists.mp hthere
  rw [text?_append]
  split
  · subst other
    rw [ht]
    rfl
  · rw [String.append_empty]

/-! Files that are replaced -/

theorem text?_replace (d : Directory) (name text other : String) :
    (d.replace name text).text? other = if other = name then some text else d.text? other := by
  have hmap : (d.replace name text).text? other =
      if other = name then ((d.touch name).text? name).map fun _ => text else (d.touch name).text? other :=
    lookup_map_text (d.touch name).files name (fun _ => text) other
  rw [hmap, text?_touch, if_pos rfl, Option.map_some]
  split_ifs with hother
  · rfl
  · rw [text?_touch, if_neg hother]

/-- A file that was not there comes behind the others. -/
theorem files_replace {d : Directory} {name : String} (hfresh : d.text? name = none) (text : String) :
    (d.replace name text).files = d.files ++ [(name, text)] := by
  have hothers (file : String × String) (hfile : file ∈ d.files) : file.1 ≠ name := by
    rintro rfl
    simpa using List.lookup_eq_none_iff.mp hfresh file hfile
  have htouch : (d.touch name).files = d.files ++ [(name, "")] := by
    rw [touch, hfresh]
    rfl
  have hsame : (d.files.map fun (n, t) => if n = name then (n, text) else (n, t)) = d.files :=
    (List.map_congr_left fun file hfile => if_neg (hothers file hfile)).trans (List.map_id d.files)
  rw [replace, htouch]
  simp only [List.map_append, hsame, List.map_singleton, if_true]

end Directory

end ContentProbe
