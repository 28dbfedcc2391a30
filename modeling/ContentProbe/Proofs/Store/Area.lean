import ContentProbe.Store
import Mathlib.Data.List.Nodup

/-!
An area as a map from traces to spans. Each operation is described by what it does to the look-up of a
trace. A well-formed area holds every span under its own trace, and none of its traces has two spans with
one id; its spans are then the ones that a look-up by trace and span id finds.
-/

namespace ContentProbe.Area

/-- Each trace has one entry, which holds spans of that trace with distinct ids. -/
structure WellFormed (a : Area) : Prop where
  nodup : (a.traces.map (·.1)).Nodup
  own : ∀ {t : TraceId} {spans : List Span} {s : Span}, a.get? t = some spans → s ∈ spans → s.trace = t
  ids : ∀ {t : TraceId} {spans : List Span}, a.get? t = some spans → (spans.map (·.id)).Nodup

theorem contains_iff {a : Area} {t : TraceId} : a.contains t = true ↔ ∃ spans, a.get? t = some spans := by
  simp [contains, Option.isSome_iff_exists]

theorem get?_eq_none_iff {a : Area} {t : TraceId} : a.get? t = none ↔ t ∉ a.traces.map (·.1) := by
  simp only [get?, List.lookup_eq_none_iff, List.mem_map, not_exists, not_and]
  constructor
  · intro h e he ht
    simpa [ht] using h e he
  · intro h e he
    simpa using fun ht => h e he ht.symm

/-! Look-ups after operations -/

@[simp] theorem get?_empty (t : TraceId) : empty.get? t = none := rfl

theorem lookup_pushEntry (s : Span) (entries : List (TraceId × List Span)) (t : TraceId) :
    (pushEntry s entries).lookup t =
      if t = s.trace then some ((entries.lookup t).getD [] ++ [s]) else entries.lookup t := by
  induction entries with
  | nil =>
      by_cases ht : t = s.trace
      · simp [pushEntry, ht]
      · simp [pushEntry, ht, List.lookup_cons, beq_eq_false_iff_ne.mpr ht]
  | cons e entries ih =>
      obtain ⟨trace, spans⟩ := e
      by_cases hs : trace = s.trace
      · subst hs
        by_cases ht : t = s.trace
        · simp [pushEntry, ht]
        · simp [pushEntry, ht, List.lookup_cons, beq_eq_false_iff_ne.mpr ht]
      · by_cases ht : t = trace
        · subst ht
          simp [pushEntry, hs]
        · simp [pushEntry, hs, List.lookup_cons, beq_eq_false_iff_ne.mpr ht, ih]

theorem get?_push (a : Area) (s : Span) (t : TraceId) :
    (a.push s).get? t = if t = s.trace then some ((a.get? t).getD [] ++ [s]) else a.get? t :=
  lookup_pushEntry s a.traces t

theorem get?_pushTrace {a : Area} {trace : TraceId} (hnew : a.get? trace = none) (spans : List Span)
    (t : TraceId) :
    (a.pushTrace trace spans).get? t = if t = trace then some spans else a.get? t := by
  simp only [get?, pushTrace, List.lookup_append] at hnew ⊢
  by_cases ht : t = trace
  · subst ht
    simp [hnew]
  · simp [ht, List.lookup_cons, beq_eq_false_iff_ne.mpr ht]

theorem get?_erase (a : Area) (trace t : TraceId) :
    (a.erase trace).get? t = if t = trace then none else a.get? t := by
  obtain ⟨entries⟩ := a
  simp only [get?, erase]
  induction entries with
  | nil => simp
  | cons e entries ih =>
      obtain ⟨u, spans⟩ := e
      by_cases hu : u = trace
      · subst hu
        by_cases ht : t = u
        · subst ht
          simpa using ih
        · simpa [List.lookup_cons, beq_eq_false_iff_ne.mpr ht, ht] using ih
      · by_cases ht : t = u
        · subst ht
          simp [hu]
        · simpa [List.lookup_cons, beq_eq_false_iff_ne.mpr ht, hu] using ih

/-! Operations keep an area well-formed -/

theorem WellFormed.empty : WellFormed Area.empty := ⟨by simp [Area.empty], by simp, by simp⟩

theorem keys_pushEntry (s : Span) (entries : List (TraceId × List Span)) :
    (pushEntry s entries).map (·.1) =
      if s.trace ∈ entries.map (·.1) then entries.map (·.1) else entries.map (·.1) ++ [s.trace] := by
  induction entries with
  | nil => simp [pushEntry]
  | cons e entries ih =>
      obtain ⟨trace, spans⟩ := e
      by_cases hs : trace = s.trace
      · simp [pushEntry, hs]
      · have hs' : s.trace ≠ trace := fun h => hs h.symm
        simp only [pushEntry, hs, if_false, List.map_cons, ih, List.mem_cons, hs', false_or]
        split <;> rfl

/-- A span may be pushed whose id is new in its trace. -/
theorem WellFormed.push {a : Area} (ha : a.WellFormed) {s : Span} (hnew : a.span? s.trace s.id = none) :
    (a.push s).WellFormed := by
  refine ⟨?_, ?_, ?_⟩
  · simp only [Area.push, keys_pushEntry]
    split
    · exact ha.nodup
    · exact List.concat_eq_append ▸ ha.nodup.concat ‹_›
  · intro t spans x hget hx
    rw [get?_push] at hget
    split at hget
    · rename_i ht
      subst ht
      obtain rfl := Option.some.inj hget
      rcases List.mem_append.mp hx with hx | hx
      · cases hold : a.get? s.trace with
        | none => simp [hold] at hx
        | some old =>
            rw [hold, Option.getD_some] at hx
            exact ha.own hold hx
      · rw [List.mem_singleton.mp hx]
    · exact ha.own hget hx
  · intro t spans hget
    rw [get?_push] at hget
    split at hget
    · rename_i ht
      subst ht
      obtain rfl := Option.some.inj hget
      cases hold : a.get? s.trace with
      | none => simp
      | some old =>
          simp only [span?, hold, Option.bind_some, List.find?_eq_none, decide_eq_true_eq] at hnew
          simp only [Option.getD_some, List.map_append, List.map_cons, List.map_nil]
          rw [← List.concat_eq_append]
          exact (ha.ids hold).concat (by simpa using hnew)
    · exact ha.ids hget

theorem WellFormed.pushTrace {a : Area} (ha : a.WellFormed) {trace : TraceId} {spans : List Span}
    (hnew : a.get? trace = none) (hown : ∀ s ∈ spans, s.trace = trace)
    (hids : (spans.map (·.id)).Nodup) : (a.pushTrace trace spans).WellFormed := by
  refine ⟨?_, ?_, ?_⟩
  · simp only [Area.pushTrace, List.map_append, List.map_cons, List.map_nil]
    exact List.concat_eq_append ▸ ha.nodup.concat (get?_eq_none_iff.mp hnew)
  · intro t found x hget hx
    rw [get?_pushTrace hnew] at hget
    split at hget
    · rename_i ht
      obtain rfl := Option.some.inj hget
      exact (hown x hx).trans ht.symm
    · exact ha.own hget hx
  · intro t found hget
    rw [get?_pushTrace hnew] at hget
    split at hget
    · exact Option.some.inj hget ▸ hids
    · exact ha.ids hget

theorem get?_of_get?_erase {a : Area} {trace t : TraceId} {spans : List Span}
    (h : (a.erase trace).get? t = some spans) : a.get? t = some spans := by
  rw [get?_erase] at h
  split at h
  · cases h
  · exact h

theorem WellFormed.erase {a : Area} (ha : a.WellFormed) (trace : TraceId) :
    (a.erase trace).WellFormed :=
  ⟨(ha.nodup.sublist ((List.filter_sublist).map _)), fun hget => ha.own (get?_of_get?_erase hget),
    fun hget => ha.ids (get?_of_get?_erase hget)⟩

/-! The spans of a well-formed area -/

theorem mem_traces_iff {a : Area} (ha : a.WellFormed) {e : TraceId × List Span} :
    e ∈ a.traces ↔ a.get? e.1 = some e.2 := by
  obtain ⟨entries⟩ := a
  have hnodup : (entries.map (·.1)).Nodup := ha.nodup
  clear ha
  simp only [get?]
  induction entries with
  | nil => simp
  | cons head entries ih =>
      obtain ⟨t, spans⟩ := head
      obtain ⟨u, found⟩ := e
      rw [List.map_cons, List.nodup_cons] at hnodup
      have htail := ih hnodup.2
      by_cases hu : u = t
      · subst hu
        have habsent : (u, found) ∉ entries := fun h =>
          hnodup.1 (List.mem_map.mpr ⟨(u, found), h, rfl⟩)
        simp [habsent, eq_comm]
      · simp only [List.lookup_cons, beq_eq_false_iff_ne.mpr hu] at htail ⊢
        simpa [hu] using htail

theorem find?_id_eq_some_iff {spans : List Span} (hids : (spans.map (·.id)).Nodup) {id : SpanId} {s : Span} :
    spans.find? (·.id = id) = some s ↔ s ∈ spans ∧ s.id = id := by
  constructor
  · intro h
    exact ⟨List.mem_of_find?_eq_some h, by simpa using List.find?_some h⟩
  · rintro ⟨hs, rfl⟩
    cases hfind : spans.find? (·.id = s.id) with
    | none => simpa using List.find?_eq_none.mp hfind s hs
    | some r =>
        have hr : r ∈ spans := List.mem_of_find?_eq_some hfind
        have hid : r.id = s.id := by simpa using List.find?_some hfind
        rw [List.inj_on_of_nodup_map hids hr hs hid]

/-- Looking a span up by trace and id finds it exactly if its trace has an entry that holds it. -/
theorem span?_eq_some_iff {a : Area} (ha : a.WellFormed) {t : TraceId} {id : SpanId} {s : Span} :
    a.span? t id = some s ↔ s.trace = t ∧ s.id = id ∧ s ∈ a.spans := by
  have hmem : s ∈ a.spans ↔ ∃ spans, a.get? s.trace = some spans ∧ s ∈ spans := by
    simp only [spans, List.mem_flatMap, mem_traces_iff ha]
    constructor
    · rintro ⟨e, he, hs⟩
      exact ⟨e.2, ha.own he hs ▸ he, hs⟩
    · rintro ⟨spans, hget, hs⟩
      exact ⟨(s.trace, spans), hget, hs⟩
  rw [hmem]
  constructor
  · intro h
    obtain ⟨spans, hget, hfind⟩ := Option.bind_eq_some_iff.mp h
    obtain ⟨hs, hid⟩ := (find?_id_eq_some_iff (ha.ids hget)).mp hfind
    have htrace := ha.own hget hs
    exact ⟨htrace, hid, spans, htrace ▸ hget, hs⟩
  · rintro ⟨rfl, rfl, spans, hget, hs⟩
    simp only [span?, hget, Option.bind_some]
    exact (find?_id_eq_some_iff (ha.ids hget)).mpr ⟨hs, rfl⟩

/-- A well-formed area holds every span once. -/
theorem WellFormed.nodup_spans {a : Area} (ha : a.WellFormed) : a.spans.Nodup := by
  rw [spans, List.nodup_flatMap]
  constructor
  · intro e he
    exact (ha.ids ((mem_traces_iff ha).mp he)).of_map
  · refine (List.pairwise_map.mp ha.nodup).imp_of_mem fun {e f} he hf hne x hxe hxf => hne ?_
    rw [← ha.own ((mem_traces_iff ha).mp he) hxe, ← ha.own ((mem_traces_iff ha).mp hf) hxf]

end ContentProbe.Area
