import ContentProbe.Proofs.Earliest
import ContentProbe.Proofs.Store.Area
import ContentProbe.Proofs.Trace.Conversion

/-!
A store as a map from places to spans, a place being a trace with a span id, together with the set of
tracked traces. Taking in spans fills the places that are empty, so that the first span that came to a place
stays; tracking moves spans from one area to the other and changes no place; discarding empties the places
outside the tracked traces.
-/

namespace ContentProbe

/-- The span belongs to a place. -/
def Span.isAt (t : TraceId) (id : SpanId) (s : Span) : Bool := s.trace = t && s.id = id

/-- The first of some spans that belongs to a place. -/
def firstSpan? (spans : List Span) (t : TraceId) (id : SpanId) : Option Span :=
  spans.find? (Span.isAt t id)

/-- No place has two different spans. -/
def Coherent (spans : List Span) : Prop :=
  ∀ s ∈ spans, ∀ s' ∈ spans, s.trace = s'.trace → s.id = s'.id → s = s'

instance (spans : List Span) : Decidable (Coherent spans) :=
  inferInstanceAs (Decidable (∀ s ∈ spans, ∀ s' ∈ spans, s.trace = s'.trace → s.id = s'.id → s = s'))

/-- The spans that are the first at their place. -/
def leading (spans : List Span) : List Span :=
  spans.filter fun s => decide (firstSpan? spans s.trace s.id = some s)

theorem Span.isAt_iff {t : TraceId} {id : SpanId} {s : Span} :
    s.isAt t id = true ↔ s.trace = t ∧ s.id = id := by
  simp [Span.isAt]

theorem Span.isAt_eq_false_of_trace {t : TraceId} {s : Span} (h : t ≠ s.trace) (id : SpanId) :
    s.isAt t id = false := by
  simp [Span.isAt, h.symm]

theorem firstSpan?_append (xs ys : List Span) (t : TraceId) (id : SpanId) :
    firstSpan? (xs ++ ys) t id = (firstSpan? xs t id).or (firstSpan? ys t id) :=
  List.find?_append

theorem mem_of_firstSpan? {spans : List Span} {t : TraceId} {id : SpanId} {s : Span}
    (h : firstSpan? spans t id = some s) : s ∈ spans ∧ s.trace = t ∧ s.id = id :=
  ⟨List.mem_of_find?_eq_some h, Span.isAt_iff.mp (List.find?_some h)⟩

/-- A span that was reported leaves its place taken. -/
theorem exists_firstSpan?_of_mem {spans : List Span} {s : Span} (hs : s ∈ spans) :
    ∃ s', firstSpan? spans s.trace s.id = some s' := by
  cases h : firstSpan? spans s.trace s.id with
  | some s' => exact ⟨s', rfl⟩
  | none => exact absurd (Span.isAt_iff.mpr ⟨rfl, rfl⟩) (List.find?_eq_none.mp h s hs)

theorem mem_leading {spans : List Span} {s : Span} :
    s ∈ leading spans ↔ firstSpan? spans s.trace s.id = some s := by
  simp only [leading, List.mem_filter, decide_eq_true_eq, and_iff_right_iff_imp]
  exact fun h => (mem_of_firstSpan? h).1

theorem Coherent.congr {spans spans' : List Span} (hmem : ∀ s, s ∈ spans ↔ s ∈ spans')
    (hc : Coherent spans) : Coherent spans' :=
  fun s hs s' hs' => hc s ((hmem s).mpr hs) s' ((hmem s').mpr hs')

/-- Of coherent spans, each one is the first at its place. -/
theorem Coherent.mem_leading_iff {spans : List Span} (hc : Coherent spans) {s : Span} :
    s ∈ leading spans ↔ s ∈ spans := by
  rw [mem_leading]
  constructor
  · exact fun h => (mem_of_firstSpan? h).1
  · intro hs
    obtain ⟨s', hs'⟩ := exists_firstSpan?_of_mem hs
    obtain ⟨hmem, htrace, hid⟩ := mem_of_firstSpan? hs'
    rw [hs', hc s' hmem s hs htrace hid]

theorem Area.span?_push (a : Area) (s : Span) (t : TraceId) (id : SpanId) :
    (a.push s).span? t id = (a.span? t id).or (firstSpan? [s] t id) := by
  simp only [Area.span?, Area.get?_push, firstSpan?]
  by_cases ht : t = s.trace
  · subst ht
    have hplace : [s].find? (·.id = id) = [s].find? (Span.isAt s.trace id) := by
      simp [Span.isAt]
    simp only [if_true, Option.bind_some, List.find?_append, hplace]
    cases a.get? s.trace <;> rfl
  · simp [ht, Span.isAt_eq_false_of_trace ht]

namespace Store

/-- The areas are well-formed and have no trace in common. -/
structure WellFormed (s : Store) : Prop where
  tracked : s.tracked.WellFormed
  pending : s.pending.WellFormed
  apart : ∀ {t : TraceId}, s.isTracked t = true → s.pending.get? t = none

/-- The span at a place, in either area. -/
def span? (s : Store) (t : TraceId) (id : SpanId) : Option Span :=
  (s.tracked.span? t id).or (s.pending.span? t id)

/-- The tracked traces, each with its spans by their ids. -/
def spansByTrace (s : Store) (t : TraceId) : Option (SpanId → Option Span) :=
  (s.tracked.get? t).map fun spans id => spans.find? (·.id = id)

theorem get?_tracked_of_not_isTracked {s : Store} {t : TraceId} (ht : ¬ s.isTracked t = true) :
    s.tracked.get? t = none := by
  cases h : s.tracked.get? t with
  | none => rfl
  | some spans => exact absurd (Area.contains_iff.mpr ⟨spans, h⟩) ht

theorem span?_of_isTracked {s : Store} (hs : s.WellFormed) {t : TraceId} (ht : s.isTracked t = true)
    (id : SpanId) : s.span? t id = s.tracked.span? t id := by
  simp [span?, Area.span?, hs.apart ht]

theorem span?_of_not_isTracked {s : Store} {t : TraceId} (ht : ¬ s.isTracked t = true) (id : SpanId) :
    s.span? t id = s.pending.span? t id := by
  simp [span?, Area.span?, get?_tracked_of_not_isTracked ht]

/-- A place holds the one stored span that belongs to it. -/
theorem span?_eq_some_iff {s : Store} (hs : s.WellFormed) {t : TraceId} {id : SpanId} {x : Span} :
    s.span? t id = some x ↔ x.trace = t ∧ x.id = id ∧ x ∈ s.allSpans := by
  have harea : s.span? t id = some x ↔
      s.tracked.span? t id = some x ∨ s.pending.span? t id = some x := by
    by_cases ht : s.isTracked t = true
    · simp [span?_of_isTracked hs ht, Area.span?, hs.apart ht]
    · simp [span?_of_not_isTracked ht, Area.span?, get?_tracked_of_not_isTracked ht]
  rw [harea, Area.span?_eq_some_iff hs.tracked, Area.span?_eq_some_iff hs.pending, allSpans,
    List.mem_append]
  tauto

theorem mem_allSpans_iff {s : Store} (hs : s.WellFormed) {x : Span} :
    x ∈ s.allSpans ↔ s.span? x.trace x.id = some x := by
  simp [span?_eq_some_iff hs]

theorem coherent_allSpans {s : Store} (hs : s.WellFormed) : Coherent s.allSpans := by
  intro x hx y hy htrace hid
  rw [mem_allSpans_iff hs] at hx hy
  rw [htrace, hid, hy] at hx
  exact (Option.some.inj hx).symm

theorem mem_tracked_iff {s : Store} (hs : s.WellFormed) {x : Span} :
    x ∈ s.tracked.spans ↔ s.isTracked x.trace = true ∧ x ∈ s.allSpans := by
  constructor
  · intro hx
    refine ⟨?_, List.mem_append_left _ hx⟩
    have hplace := (Area.span?_eq_some_iff hs.tracked).mpr ⟨rfl, rfl, hx⟩
    obtain ⟨spans, hget, _⟩ := Option.bind_eq_some_iff.mp hplace
    exact Area.contains_iff.mpr ⟨spans, hget⟩
  · rintro ⟨ht, hx⟩
    rw [mem_allSpans_iff hs, span?_of_isTracked hs ht] at hx
    exact ((Area.span?_eq_some_iff hs.tracked).mp hx).2.2

/-- A store holds every span once, since no trace is in both areas. -/
theorem nodup_allSpans {s : Store} (hs : s.WellFormed) : s.allSpans.Nodup := by
  refine List.nodup_append'.mpr ⟨hs.tracked.nodup_spans, hs.pending.nodup_spans, fun x hx hx' => ?_⟩
  have hplace := (Area.span?_eq_some_iff hs.pending).mpr ⟨rfl, rfl, hx'⟩
  simp [Area.span?, hs.apart ((mem_tracked_iff hs).mp hx).1] at hplace

/-- The spans of a tracked trace are the stored spans that belong to it. -/
theorem mem_trace_iff {s : Store} (hs : s.WellFormed) {t : TraceId} {x : Span} :
    x ∈ (s.tracked.get? t).getD [] ↔ s.isTracked t = true ∧ x.trace = t ∧ x ∈ s.allSpans := by
  constructor
  · intro hx
    cases hget : s.tracked.get? t with
    | none => simp [hget] at hx
    | some spans =>
        rw [hget, Option.getD_some] at hx
        have ht : x.trace = t := hs.tracked.own hget hx
        have hspans : x ∈ s.tracked.spans := List.mem_flatMap.mpr
          ⟨(t, spans), (Area.mem_traces_iff hs.tracked).mpr hget, hx⟩
        exact ⟨Area.contains_iff.mpr ⟨spans, hget⟩, ht, List.mem_append_left _ hspans⟩
  · rintro ⟨ht, rfl, hx⟩
    rw [mem_allSpans_iff hs, span?_of_isTracked hs ht] at hx
    obtain ⟨spans, hget, hfind⟩ := Option.bind_eq_some_iff.mp hx
    rw [hget, Option.getD_some]
    exact List.mem_of_find?_eq_some hfind

theorem spansByTrace_eq {s : Store} (hs : s.WellFormed) (t : TraceId) :
    s.spansByTrace t = if s.isTracked t = true then some (s.span? t) else none := by
  by_cases ht : s.isTracked t = true
  · obtain ⟨spans, hget⟩ := Area.contains_iff.mp ht
    have hplaces : (fun id => spans.find? (·.id = id)) = s.span? t := by
      funext id
      rw [span?_of_isTracked hs ht, Area.span?, hget, Option.bind_some]
    simp [spansByTrace, hget, ht, hplaces]
  · simp [spansByTrace, get?_tracked_of_not_isTracked ht, ht]

/-- Stores that track the same traces and hold the same spans show the same spans by trace. -/
theorem spansByTrace_congr {s s' : Store} (hs : s.WellFormed) (hs' : s'.WellFormed)
    (htracked : ∀ t, s.isTracked t = true ↔ s'.isTracked t = true)
    (hspans : ∀ x, x ∈ s.allSpans ↔ x ∈ s'.allSpans) : s.spansByTrace = s'.spansByTrace := by
  funext t
  have hplaces : s.span? t = s'.span? t := by
    funext id
    apply Option.ext
    intro x
    rw [span?_eq_some_iff hs, span?_eq_some_iff hs', hspans]
  by_cases ht : s.isTracked t = true
  · rw [spansByTrace_eq hs, spansByTrace_eq hs', if_pos ht, if_pos ((htracked t).mp ht), hplaces]
  · rw [spansByTrace_eq hs, spansByTrace_eq hs', if_neg ht, if_neg (fun h => ht ((htracked t).mpr h))]

/-! Taking spans in -/

theorem isTracked_insert (s : Store) (x : Span) (t : TraceId) :
    (s.insert x).1.isTracked t = true ↔ s.isTracked t = true := by
  unfold insert
  split
  · rename_i hx
    split
    · rfl
    · simp only [isTracked, Area.contains, Area.get?_push] at hx ⊢
      by_cases ht : t = x.trace
      · simp [ht, hx]
      · simp [ht]
  · split <;> rfl

theorem WellFormed.insert {s : Store} (hs : s.WellFormed) (x : Span) : (s.insert x).1.WellFormed := by
  have htracked (t : TraceId) := (isTracked_insert s x t).mp
  by_cases hx : s.isTracked x.trace = true
  · by_cases hnew : s.tracked.span? x.trace x.id = none
    · have hins : (s.insert x).1 = ⟨s.tracked.push x, s.pending⟩ := by
        simp [Store.insert, hx, hnew]
      rw [hins] at htracked ⊢
      exact ⟨hs.tracked.push hnew, hs.pending, fun ht => hs.apart (htracked _ ht)⟩
    · have hins : (s.insert x).1 = s := by
        simp [Store.insert, hx, Option.isSome_iff_ne_none.mpr hnew]
      rw [hins]
      exact hs
  · by_cases hnew : s.pending.span? x.trace x.id = none
    · have hins : (s.insert x).1 = ⟨s.tracked, s.pending.push x⟩ := by
        simp [Store.insert, hx, hnew]
      rw [hins]
      refine ⟨hs.tracked, hs.pending.push hnew, fun {t} ht => ?_⟩
      have hne : t ≠ x.trace := fun h => hx (h ▸ ht)
      simpa [Area.get?_push, hne] using hs.apart ht
    · have hins : (s.insert x).1 = s := by
        simp [Store.insert, hx, Option.isSome_iff_ne_none.mpr hnew]
      rw [hins]
      exact hs

/-- Inserting fills the place of a span unless it is taken. -/
theorem span?_insert {s : Store} (hs : s.WellFormed) (x : Span) (t : TraceId) (id : SpanId) :
    (s.insert x).1.span? t id = (s.span? t id).or (firstSpan? [x] t id) := by
  -- Where the place is taken already, the new span changes nothing on the right either.
  have hold (h : (s.span? x.trace x.id).isSome) :
      s.span? t id = (s.span? t id).or (firstSpan? [x] t id) := by
    by_cases hat : x.isAt t id = true
    · obtain ⟨rfl, rfl⟩ := Span.isAt_iff.mp hat
      obtain ⟨y, hy⟩ := Option.isSome_iff_exists.mp h
      simp [hy]
    · simp [firstSpan?, hat]
  unfold Store.insert
  by_cases hx : s.isTracked x.trace = true
  · rw [if_pos hx, ← span?_of_isTracked hs hx]
    split
    · rename_i htaken
      exact hold htaken
    · simp only [span?, Area.span?_push]
      by_cases ht : t = x.trace
      · subst ht
        simp [Area.span?, hs.apart hx]
      · simp [firstSpan?, Span.isAt_eq_false_of_trace ht]
  · rw [if_neg hx, ← span?_of_not_isTracked hx]
    split
    · rename_i htaken
      exact hold htaken
    · simp [span?, Area.span?_push, Option.or_assoc]

/-- Inserts spans one after the other. -/
def insertAll (s : Store) (spans : List Span) : Store := spans.foldl (fun s x => (s.insert x).1) s

theorem isTracked_insertAll (s : Store) (spans : List Span) (t : TraceId) :
    (s.insertAll spans).isTracked t = true ↔ s.isTracked t = true := by
  induction spans generalizing s with
  | nil => rfl
  | cons x spans ih =>
      simp only [insertAll, List.foldl_cons] at ih ⊢
      rw [ih, isTracked_insert]

theorem WellFormed.insertAll {s : Store} (hs : s.WellFormed) (spans : List Span) :
    (s.insertAll spans).WellFormed := by
  induction spans generalizing s with
  | nil => exact hs
  | cons x spans ih => exact ih (hs.insert x)

/-- Of spans that come to the same empty place, the first one stays. -/
theorem span?_insertAll {s : Store} (hs : s.WellFormed) (spans : List Span) (t : TraceId) (id : SpanId) :
    (s.insertAll spans).span? t id = (s.span? t id).or (firstSpan? spans t id) := by
  induction spans generalizing s with
  | nil => simp [Store.insertAll, firstSpan?]
  | cons x spans ih =>
      calc (s.insertAll (x :: spans)).span? t id
          = ((s.insert x).1.span? t id).or (firstSpan? spans t id) := ih (hs.insert x)
        _ = (s.span? t id).or ((firstSpan? [x] t id).or (firstSpan? spans t id)) := by
            rw [span?_insert hs, Option.or_assoc]
        _ = (s.span? t id).or (firstSpan? (x :: spans) t id) := by
            rw [← firstSpan?_append, List.singleton_append]

theorem foldl_take_fst (state : Store × Intake) (spans : List Wire.Span) :
    (spans.foldl take state).1 =
      state.1.insertAll (spans.filterMap fun w => (Span.ofWire w).toOption) := by
  induction spans generalizing state with
  | nil => rfl
  | cons w spans ih =>
      rw [List.foldl_cons, ih, List.filterMap_cons]
      cases hw : Span.ofWire w with
      | error f => simp [take, hw, Except.toOption]
      | ok x =>
          have hstore : (take state w).1 = (state.1.insert x).1 := by
            simp only [take, hw]
            split <;> simp_all
          simp [hstore, Except.toOption, insertAll]

/-- A batch brings its well-formed spans into the store. -/
theorem ingest_fst (s : Store) (b : Wire.Batch) : (s.ingest b).1 = s.insertAll (Span.ofBatch b) :=
  foldl_take_fst (s, .zero) b.spans

theorem WellFormed.ingest {s : Store} (hs : s.WellFormed) (b : Wire.Batch) : (s.ingest b).1.WellFormed := by
  rw [ingest_fst]
  exact hs.insertAll _

theorem isTracked_ingest (s : Store) (b : Wire.Batch) (t : TraceId) :
    (s.ingest b).1.isTracked t = true ↔ s.isTracked t = true := by
  rw [ingest_fst, isTracked_insertAll]

/-- No batch takes a span away. -/
theorem mem_allSpans_ingest {s : Store} (hs : s.WellFormed) (b : Wire.Batch) {x : Span}
    (hx : x ∈ s.allSpans) : x ∈ (s.ingest b).1.allSpans := by
  rw [mem_allSpans_iff hs] at hx
  rw [mem_allSpans_iff (hs.ingest b), ingest_fst, span?_insertAll hs, hx, Option.some_or]

/-- What a batch adds it has brought. -/
theorem mem_of_mem_allSpans_ingest {s : Store} (hs : s.WellFormed) {b : Wire.Batch} {x : Span}
    (hx : x ∈ (s.ingest b).1.allSpans) : x ∈ s.allSpans ∨ x ∈ Span.ofBatch b := by
  rw [mem_allSpans_iff (hs.ingest b), ingest_fst, span?_insertAll hs, Option.or_eq_some_iff] at hx
  rcases hx with hold | ⟨-, hnew⟩
  · exact Or.inl ((mem_allSpans_iff hs).mpr hold)
  · exact Or.inr (mem_of_firstSpan? hnew).1

/-! Tracking traces -/

theorem isTracked_track (s : Store) (t u : TraceId) :
    (s.track t).1.isTracked u = true ↔ u = t ∨ s.isTracked u = true := by
  unfold track
  split
  · rename_i ht
    constructor
    · exact Or.inr
    · rintro (rfl | hu)
      · exact ht
      · exact hu
  · rename_i ht
    have hnew := get?_tracked_of_not_isTracked ht
    simp only [isTracked, Area.contains, Area.get?_pushTrace hnew]
    by_cases hu : u = t <;> simp [hu]

theorem WellFormed.track {s : Store} (hs : s.WellFormed) (t : TraceId) : (s.track t).1.WellFormed := by
  have htracked (u : TraceId) := (isTracked_track s t u).mp
  by_cases ht : s.isTracked t = true
  · have htrack : (s.track t).1 = s := by
      simp [Store.track, ht]
    rw [htrack]
    exact hs
  · have hnew := get?_tracked_of_not_isTracked ht
    have htrack : (s.track t).1 =
        ⟨s.tracked.pushTrace t ((s.pending.get? t).getD []), s.pending.erase t⟩ := by
      simp [Store.track, ht]
    rw [htrack] at htracked ⊢
    refine ⟨?_, hs.pending.erase t, fun {u} hu => ?_⟩
    · cases hget : s.pending.get? t with
      | none => exact hs.tracked.pushTrace hnew (by simp) (by simp)
      | some spans =>
          exact hs.tracked.pushTrace hnew (fun x hx => hs.pending.own hget hx) (hs.pending.ids hget)
    · rw [Area.get?_erase]
      rcases htracked u hu with rfl | hu
      · simp
      · simp [hs.apart hu]

/-- Tracking a trace changes no place. -/
theorem span?_track (s : Store) (t u : TraceId) (id : SpanId) :
    (s.track t).1.span? u id = s.span? u id := by
  unfold track
  split
  · rfl
  · rename_i ht
    have hnew := get?_tracked_of_not_isTracked ht
    simp only [span?, Area.span?, Area.get?_pushTrace hnew, Area.get?_erase]
    by_cases hu : u = t
    · subst hu
      cases s.pending.get? u <;> simp [hnew]
    · simp [hu]

theorem isTracked_trackAll (s : Store) (traces : List TraceId) (u : TraceId) :
    (s.trackAll traces).isTracked u = true ↔ u ∈ traces ∨ s.isTracked u = true := by
  induction traces generalizing s with
  | nil => simp [trackAll]
  | cons t traces ih =>
      simp only [trackAll, List.foldl_cons] at ih ⊢
      rw [ih, isTracked_track, List.mem_cons]
      tauto

theorem WellFormed.trackAll {s : Store} (hs : s.WellFormed) (traces : List TraceId) :
    (s.trackAll traces).WellFormed := by
  induction traces generalizing s with
  | nil => exact hs
  | cons t traces ih => exact ih (hs.track t)

theorem span?_trackAll (s : Store) (traces : List TraceId) (u : TraceId) (id : SpanId) :
    (s.trackAll traces).span? u id = s.span? u id := by
  induction traces generalizing s with
  | nil => rfl
  | cons t traces ih =>
      simp only [trackAll, List.foldl_cons] at ih ⊢
      rw [ih, span?_track]

theorem mem_allSpans_trackAll {s : Store} (hs : s.WellFormed) (traces : List TraceId) (x : Span) :
    x ∈ (s.trackAll traces).allSpans ↔ x ∈ s.allSpans := by
  rw [mem_allSpans_iff (hs.trackAll traces), mem_allSpans_iff hs, span?_trackAll]

/-! Intervals of tracked traces -/

theorem traceInterval?_eq (s : Store) (t : TraceId) :
    s.traceInterval? t = Interval.ofSpans? ((s.tracked.get? t).getD []) := by
  unfold traceInterval?
  cases s.tracked.get? t <;> rfl

/-- The interval of a trace depends on which spans of it are tracked. -/
theorem traceInterval?_congr {s s' : Store} (hs : s.WellFormed) (hs' : s'.WellFormed)
    (htracked : ∀ t, s.isTracked t = true ↔ s'.isTracked t = true)
    (hspans : ∀ x, x ∈ s.allSpans ↔ x ∈ s'.allSpans) (t : TraceId) :
    s.traceInterval? t = s'.traceInterval? t := by
  rw [traceInterval?_eq, traceInterval?_eq]
  apply Interval.ofSpans?_congr
  intro x
  rw [mem_trace_iff hs, mem_trace_iff hs', htracked, hspans]

/-- A trace shows an interval once it is tracked and has a span. -/
theorem traceInterval?_isSome_iff {s : Store} (hs : s.WellFormed) (t : TraceId) :
    (s.traceInterval? t).isSome = true ↔ s.isTracked t = true ∧ ∃ x ∈ s.allSpans, x.trace = t := by
  rw [traceInterval?_eq, Option.isSome_iff_ne_none, ne_eq, Interval.ofSpans?_eq_none_iff,
    List.eq_nil_iff_forall_not_mem]
  simp only [mem_trace_iff hs, not_forall, not_not]
  constructor
  · rintro ⟨x, ht, htrace, hx⟩
    exact ⟨ht, x, hx, htrace⟩
  · rintro ⟨ht, x, hx, htrace⟩
    exact ⟨x, ht, htrace, hx⟩

/-! Discarding pending spans -/

theorem WellFormed.discardPending {s : Store} (hs : s.WellFormed) : s.discardPending.WellFormed :=
  ⟨hs.tracked, .empty, fun _ => rfl⟩

theorem allSpans_discardPending (s : Store) : s.discardPending.allSpans = s.tracked.spans := by
  simp [allSpans, discardPending, Area.spans, Area.empty]

theorem mem_allSpans_discardPending {s : Store} (hs : s.WellFormed) (x : Span) :
    x ∈ s.discardPending.allSpans ↔ s.isTracked x.trace = true ∧ x ∈ s.allSpans := by
  rw [← mem_tracked_iff hs, allSpans_discardPending]

/-- Discarding spares the spans of a kind that occurs in tracked traces only. -/
theorem filter_allSpans_discardPending {s : Store} (hs : s.WellFormed) {kind : Span → Bool}
    (htracked : ∀ x ∈ s.allSpans, kind x = true → s.isTracked x.trace = true) :
    s.discardPending.allSpans.filter kind = s.allSpans.filter kind := by
  have hpending : s.pending.spans.filter kind = [] := by
    rw [List.filter_eq_nil_iff]
    intro x hx hkind
    have ht := htracked x (List.mem_append_right _ hx) hkind
    have hplace := (Area.span?_eq_some_iff hs.pending).mpr ⟨rfl, rfl, hx⟩
    simp [Area.span?, hs.apart ht] at hplace
  rw [allSpans_discardPending, allSpans, List.filter_append, hpending, List.append_nil]

/-! A new store -/

theorem WellFormed.tracking (traces : List TraceId) : (Store.tracking traces).WellFormed := by
  have hget {t : TraceId} {spans : List Span}
      (h : (Store.tracking traces).tracked.get? t = some spans) : spans = [] := by
    obtain ⟨l₁, l₂, heq, -⟩ := List.lookup_eq_some_iff.mp h
    have hmem : (t, spans) ∈ (Store.tracking traces).tracked.traces := by
      rw [heq]
      simp
    obtain ⟨u, -, hu⟩ := List.mem_map.mp hmem
    exact (Prod.mk.inj hu).2.symm
  refine ⟨⟨?_, fun h hx => ?_, fun h => ?_⟩, .empty, fun _ => rfl⟩
  · simpa [Store.tracking, Function.comp_def] using nodup_eraseDups traces
  · simp [hget h] at hx
  · simp [hget h]

theorem isTracked_tracking (traces : List TraceId) (t : TraceId) :
    (Store.tracking traces).isTracked t = true ↔ t ∈ traces := by
  simp [Store.tracking, isTracked, Area.contains, Area.get?]

theorem allSpans_tracking (traces : List TraceId) : (Store.tracking traces).allSpans = [] := by
  simp [Store.tracking, allSpans, Area.spans, Area.empty]

theorem traceInterval?_tracking (traces : List TraceId) (t : TraceId) :
    (Store.tracking traces).traceInterval? t = none := by
  rw [← Option.not_isSome_iff_eq_none, traceInterval?_isSome_iff (.tracking traces)]
  simp [allSpans_tracking]

/-! What a store holds of the spans that were delivered to it -/

/-- The store holds, at each place, the first of the delivered spans that belongs there. -/
structure Holds (s : Store) (spans : List Span) : Prop where
  store : s.WellFormed
  places : ∀ t id, s.span? t id = firstSpan? spans t id

theorem Holds.tracking (traces : List TraceId) : (Store.tracking traces).Holds [] := by
  refine ⟨.tracking traces, fun t id => ?_⟩
  cases h : (Store.tracking traces).span? t id with
  | none => rfl
  | some x =>
      have hx := ((span?_eq_some_iff (.tracking traces)).mp h).2.2
      simp [allSpans_tracking] at hx

theorem Holds.ingest {s : Store} {spans : List Span} (h : s.Holds spans) (b : Wire.Batch) :
    (s.ingest b).1.Holds (spans ++ Span.ofBatch b) := by
  rw [ingest_fst]
  exact ⟨h.store.insertAll _, fun t id => by rw [span?_insertAll h.store, h.places, firstSpan?_append]⟩

theorem Holds.trackAll {s : Store} {spans : List Span} (h : s.Holds spans) (traces : List TraceId) :
    (s.trackAll traces).Holds spans :=
  ⟨h.store.trackAll traces, fun t id => by rw [span?_trackAll, h.places]⟩

theorem Holds.mem_iff {s : Store} {spans : List Span} (h : s.Holds spans) {x : Span} :
    x ∈ s.allSpans ↔ x ∈ leading spans := by
  rw [mem_allSpans_iff h.store, h.places, mem_leading]

/-- Of coherent spans the store holds every one. -/
theorem Holds.mem_iff_of_coherent {s : Store} {spans : List Span} (h : s.Holds spans)
    (hc : Coherent spans) {x : Span} : x ∈ s.allSpans ↔ x ∈ spans :=
  h.mem_iff.trans hc.mem_leading_iff

end Store

end ContentProbe
