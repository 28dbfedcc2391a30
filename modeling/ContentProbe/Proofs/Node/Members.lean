import ContentProbe.Node.Reply
import ContentProbe.Proofs.Text.Denotation

/-!
What a value tells of a record, said without its readers. An object tells a member under its name, an array in its
place; a member may be missing, but not come twice.
-/

namespace ContentProbe.Node

open ContentProbe.Text Members

/-! Members by their names -/

/-- The fields tell a member under a name, once or not at all. -/
inductive MemberOf (fields : List (Option String × Json)) (name : String) : Option Json → Prop where
  | missing (h : ∀ field ∈ fields, field.1 ≠ some name) : MemberOf fields name none
  | told {before after : List (Option String × Json)} {value : Json}
      (hfields : fields = before ++ (some name, value) :: after) (hbefore : ∀ field ∈ before, field.1 ≠ some name)
      (hafter : ∀ field ∈ after, field.1 ≠ some name) : MemberOf fields name (some value)

/-- The value tells the members of a record with these names. Each key of an object is a text, be it the name of a
member or another one; the items of an array are the first members, and it has no others. -/
inductive Tells (names : List String) : Json → List (Option Json) → Prop where
  | object {fields : List (Option String × Json)} {members : List (Option Json)}
      (hkeys : ∀ field ∈ fields, field.1 ≠ none) (h : List.Forall₂ (MemberOf fields) names members) :
      Tells names (.object fields) members
  | array {items : List Json} {missing : Nat} (h : items.length + missing = names.length) :
      Tells names (.array items) (items.map some ++ List.replicate missing none)

theorem filter_name_eq_nil_iff {fields : List (Option String × Json)} {name : String} :
    fields.filter (·.1 == some name) = [] ↔ ∀ field ∈ fields, field.1 ≠ some name := by
  rw [List.filter_eq_nil_iff]
  exact forall₂_congr fun _ _ => not_congr beq_iff_eq

theorem filter_name_eq_singleton_iff {fields : List (Option String × Json)} {name : String} {value : Json} :
    (∃ key, fields.filter (·.1 == some name) = [(key, value)]) ↔ MemberOf fields name (some value) := by
  constructor
  · rintro ⟨key, h⟩
    obtain ⟨before, after, rfl, hbefore, hkey, hafter⟩ := List.filter_eq_cons_iff.mp h
    obtain rfl : key = some name := beq_iff_eq.mp hkey
    exact .told rfl (fun field hfield heq => hbefore field hfield (beq_iff_eq.mpr heq))
      (filter_name_eq_nil_iff.mp hafter)
  · intro h
    cases h with
    | told hfields hbefore hafter =>
        subst hfields
        refine ⟨some name, ?_⟩
        rw [List.filter_append, filter_name_eq_nil_iff.mpr hbefore, List.filter_cons_of_pos (by simp),
          filter_name_eq_nil_iff.mpr hafter, List.nil_append]

theorem only?_eq_some_iff {fields : List (Option String × Json)} {name : String} {member : Option Json} :
    only? fields name = some member ↔ MemberOf fields name member := by
  unfold only?
  split
  · rename_i hnone
    have hmissing := filter_name_eq_nil_iff.mp hnone
    constructor
    · rintro ⟨⟩
      exact .missing hmissing
    · intro h
      cases h with
      | missing => rfl
      | told hfields => exact absurd rfl (hmissing _ (hfields ▸ List.mem_append_right _ List.mem_cons_self))
  · rename_i key value hone
    have htold := filter_name_eq_singleton_iff.mp ⟨key, hone⟩
    constructor
    · rintro ⟨⟩
      exact htold
    · intro h
      cases h with
      | missing hmissing =>
          rw [filter_name_eq_nil_iff.mpr hmissing] at hone
          cases hone
      | told hfields hbefore hafter =>
          obtain ⟨key', hone'⟩ := filter_name_eq_singleton_iff.mpr (.told hfields hbefore hafter)
          rw [hone] at hone'
          cases hone'
          rfl
  · rename_i hnone hone
    refine iff_of_false (fun h => nomatch h) fun h => ?_
    cases h with
    | missing hmissing => exact hnone (filter_name_eq_nil_iff.mpr hmissing)
    | told hfields hbefore hafter =>
        obtain ⟨key, h⟩ := filter_name_eq_singleton_iff.mpr (.told hfields hbefore hafter)
        exact hone _ _ h

/-- The members that are read off a value are those that it tells. -/
theorem ofJson?_eq_some_iff {names : List String} {j : Json} {members : List (Option Json)} :
    Members.ofJson? names j = some members ↔ Tells names j members := by
  cases j with
  | object fields =>
      have hkeys : (fields.all fun field => field.1.isSome) = true ↔ ∀ field ∈ fields, field.1 ≠ none := by
        rw [List.all_eq_true]
        exact forall₂_congr fun _ _ => Option.isSome_iff_ne_none
      rw [Members.ofJson?, Option.ite_none_right_eq_some, hkeys, mapM_eq_some_iff]
      simp only [only?_eq_some_iff]
      constructor
      · exact fun ⟨hkeys, h⟩ => .object hkeys h
      · rintro ⟨hkeys, h⟩
        exact ⟨hkeys, h⟩
  | array items =>
      have hread (missing : Nat) (h : items.length + missing = names.length) :
          ((List.range names.length).map fun i => items[i]?) = items.map some ++ List.replicate missing none := by
        refine List.ext_getElem (by simp [h]) fun i hi _ => ?_
        rw [List.getElem_map, List.getElem_range, List.getElem_append]
        split_ifs with hitem
        · rw [List.getElem_map, List.getElem?_eq_getElem]
        · rw [List.getElem_replicate, List.getElem?_eq_none]
          rwa [List.length_map, Nat.not_lt] at hitem
      rw [Members.ofJson?, Option.ite_none_left_eq_some, Option.some.injEq]
      constructor
      · rintro ⟨hle, rfl⟩
        have hmissing : items.length + (names.length - items.length) = names.length := by omega
        rw [hread _ hmissing]
        exact .array hmissing
      · intro h
        cases h with
        | array hmissing => exact ⟨by omega, hread _ hmissing⟩
  | null => exact iff_of_false (fun h => nomatch h) fun h => nomatch h
  | bool => exact iff_of_false (fun h => nomatch h) fun h => nomatch h
  | number => exact iff_of_false (fun h => nomatch h) fun h => nomatch h
  | string => exact iff_of_false (fun h => nomatch h) fun h => nomatch h

end ContentProbe.Node
