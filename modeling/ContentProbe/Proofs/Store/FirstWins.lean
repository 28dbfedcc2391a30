import ContentProbe.Proofs.Store.Contents
import Mathlib.Data.Finset.Card

/-!
A store is a map of places in two parts. Seen from outside there is one map, from places to the spans that
came to them first, and a set of tracked traces. Storing a span fills its place unless it is taken, tracking
a trace only adds it to the set, and discarding empties the places outside the set. Under every sequence of
operations a store gives the answers that this map gives, and its areas are the two parts of the map.
-/

namespace ContentProbe

def Span.place (s : Span) : TraceId × SpanId := (s.trace, s.id)

/-- Places with the spans that came to them first, and the traces that are tracked. -/
structure PlaceMap where
  span? : TraceId → SpanId → Option Span
  tracked : Finset TraceId

namespace Store

inductive Operation where
  | ingest (b : Wire.Batch)
  | track (t : TraceId)
  | discard

/-- What an operation tells: what became of the spans of a batch, or whether a trace was tracked newly. -/
inductive Answer where
  | intake (i : Intake)
  | isNew (value : Bool)
  | nothing
  deriving DecidableEq, Repr

def perform (s : Store) : Operation → Store × Answer
  | .ingest b => ((s.ingest b).1, .intake (s.ingest b).2)
  | .track t => ((s.track t).1, .isNew (s.track t).2)
  | .discard => (s.discardPending, .nothing)

/-- Performs operations one after the other and collects their answers. -/
def performAll {σ : Type} (perform : σ → Operation → σ × Answer) : σ → List Operation → σ × List Answer
  | s, [] => (s, [])
  | s, op :: ops =>
      let (s, answer) := perform s op
      let (s, answers) := performAll perform s ops
      (s, answer :: answers)

end Store

namespace PlaceMap

def tracking (traces : List TraceId) : PlaceMap := ⟨fun _ _ => none, traces.toFinset⟩

/-- Fills the place of a span, unless it is taken. -/
def put (m : PlaceMap) (x : Span) : PlaceMap :=
  { m with span? := fun t id => if x.isAt t id then some ((m.span? t id).getD x) else m.span? t id }

def track (m : PlaceMap) (t : TraceId) : PlaceMap := { m with tracked := insert t m.tracked }

/-- Empties the places outside the tracked traces. -/
def discard (m : PlaceMap) : PlaceMap :=
  { m with span? := fun t id => if t ∈ m.tracked then m.span? t id else none }

/-- The empty places that spans fill. -/
def filled (m : PlaceMap) (spans : List Span) : Finset (TraceId × SpanId) :=
  (spans.map Span.place).toFinset.filter fun p => m.span? p.1 p.2 = none

/-- How many of the spans find their place taken, be it from before or by an earlier one of them. -/
def repeats : PlaceMap → List Span → Nat
  | _, [] => 0
  | m, x :: spans => (if (m.span? x.trace x.id).isSome then 1 else 0) + repeats (m.put x) spans

def intakeOf (m : PlaceMap) (b : Wire.Batch) : Intake :=
  ⟨(m.filled (Span.ofBatch b)).card, m.repeats (Span.ofBatch b),
    b.spans.countP fun w => !(Span.ofWire w).isOk⟩

def perform (m : PlaceMap) : Store.Operation → PlaceMap × Store.Answer
  | .ingest b => ((Span.ofBatch b).foldl put m, .intake (m.intakeOf b))
  | .track t => (m.track t, .isNew (decide (t ∉ m.tracked)))
  | .discard => (m.discard, .nothing)

theorem put_eq_self {m : PlaceMap} {x : Span} (h : (m.span? x.trace x.id).isSome = true) : m.put x = m := by
  obtain ⟨y, hy⟩ := Option.isSome_iff_exists.mp h
  have hspan : (m.put x).span? = m.span? := by
    funext t id
    by_cases hat : x.isAt t id = true
    · obtain ⟨rfl, rfl⟩ := Span.isAt_iff.mp hat
      simp [put, hy]
    · simp [put, hat]
  exact congrArg (PlaceMap.mk · m.tracked) hspan

theorem span?_put_eq_none_iff (m : PlaceMap) (x : Span) (t : TraceId) (id : SpanId) :
    (m.put x).span? t id = none ↔ m.span? t id = none ∧ (t, id) ≠ x.place := by
  have hplace : x.isAt t id = true ↔ (t, id) = x.place := by
    rw [Span.isAt_iff, Span.place, Prod.mk.injEq]
    exact and_congr eq_comm eq_comm
  by_cases hat : x.isAt t id = true
  · simp [put, hat, hplace.mp hat]
  · simp [put, hat, mt hplace.mpr hat]

theorem mem_filled {m : PlaceMap} {spans : List Span} {p : TraceId × SpanId} :
    p ∈ m.filled spans ↔ (∃ x ∈ spans, x.place = p) ∧ m.span? p.1 p.2 = none := by
  simp [filled]

/-- A span fills one more place than those after it, or finds its place taken. -/
theorem card_filled_cons (m : PlaceMap) (x : Span) (spans : List Span) :
    (m.filled (x :: spans)).card =
      (if (m.span? x.trace x.id).isSome then 0 else 1) + ((m.put x).filled spans).card := by
  split
  · rename_i htaken
    have hsame : m.filled (x :: spans) = m.filled spans := by
      ext p
      simp only [mem_filled, List.mem_cons, exists_eq_or_imp]
      constructor
      · rintro ⟨rfl | hp, hnone⟩
        · have hempty : m.span? x.trace x.id = none := hnone
          simp [hempty] at htaken
        · exact ⟨hp, hnone⟩
      · exact fun ⟨hp, hnone⟩ => ⟨Or.inr hp, hnone⟩
    rw [put_eq_self htaken, hsame, Nat.zero_add]
  · rename_i hempty
    rw [Option.not_isSome_iff_eq_none] at hempty
    have hinsert : m.filled (x :: spans) = insert x.place ((m.put x).filled spans) := by
      ext p
      simp only [mem_filled, List.mem_cons, exists_eq_or_imp, Finset.mem_insert, span?_put_eq_none_iff]
      constructor
      · rintro ⟨hp, hnone⟩
        by_cases hx : p = x.place
        · exact Or.inl hx
        · exact Or.inr ⟨hp.resolve_left fun h => hx h.symm, hnone, hx⟩
      · rintro (rfl | ⟨hp, hnone, -⟩)
        · exact ⟨Or.inl rfl, hempty⟩
        · exact ⟨Or.inr hp, hnone⟩
    have hnew : x.place ∉ (m.put x).filled spans := by
      simp [mem_filled, span?_put_eq_none_iff, Span.place]
    rw [hinsert, Finset.card_insert_of_notMem hnew, Nat.add_comm]

theorem card_filled_add_repeats (m : PlaceMap) (spans : List Span) :
    (m.filled spans).card + m.repeats spans = spans.length := by
  induction spans generalizing m with
  | nil => simp [filled, repeats]
  | cons x spans ih =>
      have htail := ih (m.put x)
      rw [card_filled_cons, repeats, List.length_cons]
      split <;> omega

end PlaceMap

namespace Store

/-- A store and a map of places hold the same spans and track the same traces; no trace waits without a
span. -/
structure Shows (s : Store) (m : PlaceMap) : Prop where
  store : s.WellFormed
  places : ∀ t id, s.span? t id = m.span? t id
  tracked : ∀ t, s.isTracked t = true ↔ t ∈ m.tracked
  occupied : ∀ {t : TraceId} {spans : List Span}, s.pending.get? t = some spans → spans ≠ []

theorem Shows.tracking (traces : List TraceId) : (Store.tracking traces).Shows (.tracking traces) := by
  refine ⟨.tracking traces, fun t id => ?_, fun t => ?_, fun h => ?_⟩
  · exact (Holds.tracking traces).places t id
  · rw [isTracked_tracking, PlaceMap.tracking, List.mem_toFinset]
  · simp [Store.tracking] at h

theorem insert_snd {s : Store} (hs : s.WellFormed) (x : Span) :
    (s.insert x).2 = (s.span? x.trace x.id).isNone := by
  unfold Store.insert
  by_cases hx : s.isTracked x.trace = true
  · rw [if_pos hx, span?_of_isTracked hs hx]
    split <;> simp_all
  · rw [if_neg hx, span?_of_not_isTracked hx]
    split <;> simp_all

theorem get?_pending_insert_ne_nil {s : Store}
    (hs : ∀ {t : TraceId} {spans : List Span}, s.pending.get? t = some spans → spans ≠ []) (x : Span)
    {t : TraceId} {spans : List Span} (h : (s.insert x).1.pending.get? t = some spans) : spans ≠ [] := by
  unfold Store.insert at h
  split at h
  · split at h <;> exact hs h
  · split at h
    · exact hs h
    · rw [Area.get?_push] at h
      split at h
      · obtain rfl := Option.some.inj h
        simp
      · exact hs h

theorem Shows.insert {s : Store} {m : PlaceMap} (h : s.Shows m) (x : Span) :
    (s.insert x).1.Shows (m.put x) := by
  refine ⟨h.store.insert x, fun t id => ?_, fun t => ?_, get?_pending_insert_ne_nil h.occupied x⟩
  · rw [span?_insert h.store, h.places]
    by_cases hat : x.isAt t id = true
    · cases hold : m.span? t id <;> simp [PlaceMap.put, firstSpan?, hat, hold]
    · simp [PlaceMap.put, firstSpan?, hat]
  · rw [isTracked_insert]
    exact h.tracked t

theorem take_of_ok {s : Store} {i : Intake} {w : Wire.Span} {x : Span} (hw : Span.ofWire w = .ok x) :
    Store.take (s, i) w = ((s.insert x).1,
      if (s.insert x).2 then { i with accepted := i.accepted + 1 }
      else { i with duplicates := i.duplicates + 1 }) := by
  cases hput : s.insert x with
  | mk s' isNew => cases isNew <;> simp [Store.take, hw, hput]

/-- Reports that come one after the other: the spans among them are put into the map, and all are counted. -/
theorem Shows.take {s : Store} {m : PlaceMap} (h : s.Shows m) (i : Intake) (reports : List Wire.Span) :
    let spans := reports.filterMap fun w => (Span.ofWire w).toOption
    (reports.foldl Store.take (s, i)).1.Shows (spans.foldl .put m) ∧
      (reports.foldl Store.take (s, i)).2 =
        ⟨i.accepted + (m.filled spans).card, i.duplicates + m.repeats spans,
          i.malformed + reports.countP fun w => !(Span.ofWire w).isOk⟩ := by
  induction reports generalizing s m i with
  | nil => exact ⟨h, by simp [PlaceMap.filled, PlaceMap.repeats]⟩
  | cons w reports ih =>
      cases hw : Span.ofWire w with
      | error f =>
          have hrest := ih h { i with malformed := i.malformed + 1 }
          simp only [List.foldl_cons, List.filterMap_cons, List.countP_cons, Store.take, hw,
            Except.toOption, Except.isOk, Except.toBool] at hrest ⊢
          refine ⟨hrest.1, hrest.2.trans ?_⟩
          simp only [Bool.not_false, if_true, Intake.mk.injEq, true_and]
          omega
      | ok x =>
          rw [List.foldl_cons, take_of_ok hw, insert_snd h.store, h.places]
          have hrest := ih (h.insert x)
          simp only [List.filterMap_cons, List.countP_cons, hw, Except.toOption, Except.isOk, Except.toBool,
            List.foldl_cons, PlaceMap.card_filled_cons, PlaceMap.repeats] at hrest ⊢
          refine ⟨(hrest _).1, (hrest _).2.trans ?_⟩
          cases m.span? x.trace x.id <;>
            simp only [Option.isNone_none, Option.isNone_some, Option.isSome_none, Option.isSome_some, if_true,
              Bool.not_true, Bool.false_eq_true, if_false, Intake.mk.injEq] <;>
            omega

theorem Shows.track {s : Store} {m : PlaceMap} (h : s.Shows m) (t : TraceId) :
    (s.track t).1.Shows (m.track t) := by
  refine ⟨h.store.track t, fun u id => ?_, fun u => ?_, fun hget => ?_⟩
  · exact (span?_track s t u id).trans (h.places u id)
  · rw [isTracked_track, PlaceMap.track, Finset.mem_insert, h.tracked]
  · unfold Store.track at hget
    split at hget
    · exact h.occupied hget
    · exact h.occupied (Area.get?_of_get?_erase hget)

theorem Shows.discard {s : Store} {m : PlaceMap} (h : s.Shows m) : s.discardPending.Shows m.discard := by
  refine ⟨h.store.discardPending, fun t id => ?_, h.tracked, fun hget => ?_⟩
  · have hdiscard : s.discardPending.span? t id = s.tracked.span? t id := by
      simp [span?, discardPending, Area.span?]
    rw [hdiscard, PlaceMap.discard]
    by_cases ht : t ∈ m.tracked
    · simp only [if_pos ht]
      rw [← h.places, span?_of_isTracked h.store ((h.tracked t).mpr ht)]
    · have hnone := get?_tracked_of_not_isTracked (mt (h.tracked t).mp ht)
      simp [Area.span?, ht, hnone]
  · simp [discardPending] at hget

theorem track_snd (s : Store) (t : TraceId) : (s.track t).2 = !s.isTracked t := by
  unfold Store.track
  split <;> simp_all

/-- One operation gives the same answer on both sides and keeps them alike. -/
theorem Shows.perform {s : Store} {m : PlaceMap} (h : s.Shows m) (op : Operation) :
    (s.perform op).1.Shows (m.perform op).1 ∧ (s.perform op).2 = (m.perform op).2 := by
  cases op with
  | ingest b =>
      obtain ⟨hshows, hintake⟩ := h.take .zero b.spans
      refine ⟨hshows, congrArg Answer.intake (hintake.trans ?_)⟩
      simp [PlaceMap.intakeOf, Span.ofBatch, Intake.zero]
  | track t =>
      refine ⟨h.track t, congrArg Answer.isNew ?_⟩
      rw [track_snd, Bool.eq_iff_iff, Bool.not_eq_true', decide_eq_true_eq, ← h.tracked, Bool.not_eq_true]
  | discard => exact ⟨h.discard, rfl⟩

theorem Shows.performAll {s : Store} {m : PlaceMap} (h : s.Shows m) (ops : List Operation) :
    (Store.performAll Store.perform s ops).1.Shows (Store.performAll PlaceMap.perform m ops).1 ∧
      (Store.performAll Store.perform s ops).2 = (Store.performAll PlaceMap.perform m ops).2 := by
  induction ops generalizing s m with
  | nil => exact ⟨h, rfl⟩
  | cons op ops ih =>
      obtain ⟨hnext, hanswer⟩ := h.perform op
      obtain ⟨hlast, hanswers⟩ := ih hnext
      exact ⟨hlast, by simp only [Store.performAll, hanswer, hanswers]⟩

/-- The areas of a store are the parts of a map inside and outside the tracked traces. -/
structure Splits (s : Store) (m : PlaceMap) : Prop where
  /-- The tracked area has an entry for every tracked trace, be it empty, and for no other. -/
  entries : ∀ t, s.isTracked t = true ↔ t ∈ m.tracked
  tracked : ∀ t id, s.tracked.span? t id = if t ∈ m.tracked then m.span? t id else none
  pending : ∀ t id, s.pending.span? t id = if t ∈ m.tracked then none else m.span? t id
  /-- The pending area has an entry for every other trace that has a span. -/
  waiting : ∀ t, s.pending.contains t = true ↔ t ∉ m.tracked ∧ ∃ id x, m.span? t id = some x
  apart : ∀ t, ¬ (s.tracked.contains t = true ∧ s.pending.contains t = true)
  own : ∀ t spans x, s.tracked.get? t = some spans ∨ s.pending.get? t = some spans → x ∈ spans →
    x.trace = t ∧ m.span? t x.id = some x
  /-- The stored spans are those of the map, each one once. -/
  stored : ∀ x, x ∈ s.allSpans ↔ m.span? x.trace x.id = some x
  once : s.allSpans.Nodup

theorem Shows.splits {s : Store} {m : PlaceMap} (h : s.Shows m) : s.Splits m := by
  have hpending (t : TraceId) (id : SpanId) :
      s.pending.span? t id = if t ∈ m.tracked then none else m.span? t id := by
    by_cases ht : t ∈ m.tracked
    · simp [Area.span?, h.store.apart ((h.tracked t).mpr ht), ht]
    · rw [if_neg ht, ← h.places, span?_of_not_isTracked (mt (h.tracked t).mp ht)]
  have hstored (x : Span) : x ∈ s.allSpans ↔ m.span? x.trace x.id = some x := by
    rw [mem_allSpans_iff h.store, h.places]
  refine ⟨h.tracked, fun t id => ?_, hpending, fun t => ?_, fun t => ?_, fun t spans x hget hx => ?_,
    hstored, nodup_allSpans h.store⟩
  · by_cases ht : t ∈ m.tracked
    · rw [if_pos ht, ← h.places, span?_of_isTracked h.store ((h.tracked t).mpr ht)]
    · simp [Area.span?, get?_tracked_of_not_isTracked (mt (h.tracked t).mp ht), ht]
  · rw [Area.contains_iff]
    constructor
    · rintro ⟨spans, hget⟩
      have ht : t ∉ m.tracked := fun ht => by
        simp [h.store.apart ((h.tracked t).mpr ht)] at hget
      obtain ⟨x, hx⟩ := List.exists_mem_of_ne_nil spans (h.occupied hget)
      have hplace := hpending t x.id
      rw [if_neg ht, Area.span?, hget, Option.bind_some,
        (Area.find?_id_eq_some_iff (h.store.pending.ids hget)).mpr ⟨hx, rfl⟩] at hplace
      exact ⟨ht, x.id, x, hplace.symm⟩
    · rintro ⟨ht, id, x, hx⟩
      have hplace := hpending t id
      rw [if_neg ht, hx] at hplace
      obtain ⟨spans, hget, -⟩ := Option.bind_eq_some_iff.mp hplace
      exact ⟨spans, hget⟩
  · rintro ⟨htracked, hwaiting⟩
    obtain ⟨spans, hget⟩ := Area.contains_iff.mp hwaiting
    simp [h.store.apart htracked] at hget
  · have harea : x.trace = t ∧ x ∈ s.allSpans := by
      rcases hget with hget | hget
      · have hmem := (Area.mem_traces_iff h.store.tracked (e := (t, spans))).mpr hget
        exact ⟨h.store.tracked.own hget hx,
          List.mem_append_left _ (List.mem_flatMap.mpr ⟨_, hmem, hx⟩)⟩
      · have hmem := (Area.mem_traces_iff h.store.pending (e := (t, spans))).mpr hget
        exact ⟨h.store.pending.own hget hx,
          List.mem_append_right _ (List.mem_flatMap.mpr ⟨_, hmem, hx⟩)⟩
    obtain ⟨rfl, hmem⟩ := harea
    exact ⟨rfl, (hstored x).mp hmem⟩

/-- Tracking a trace loses no span, doubles none and replaces none. -/
theorem track_allSpans_perm {s : Store} (hs : s.WellFormed) (t : TraceId) :
    (s.track t).1.allSpans.Perm s.allSpans := by
  refine (List.perm_ext_iff_of_nodup (nodup_allSpans (hs.track t)) (nodup_allSpans hs)).mpr fun x => ?_
  rw [mem_allSpans_iff (hs.track t), mem_allSpans_iff hs, span?_track]

/-- Every report of a batch is counted once. -/
theorem Shows.ingest_total {s : Store} {m : PlaceMap} (h : s.Shows m) (b : Wire.Batch) :
    (s.ingest b).2.total = b.spans.length := by
  obtain ⟨-, hintake⟩ := h.perform (.ingest b)
  have hgood : (Span.ofBatch b).length = b.spans.countP fun w => (Span.ofWire w).isOk := by
    rw [Span.ofBatch, List.length_filterMap_eq_countP]
    congr 1
    funext w
    cases Span.ofWire w <;> rfl
  have hall := List.length_eq_countP_add_countP (fun w => (Span.ofWire w).isOk) (l := b.spans)
  have hwell := m.card_filled_add_repeats (Span.ofBatch b)
  rw [Answer.intake.inj hintake]
  simp only [Intake.total, PlaceMap.intakeOf, Bool.not_eq_true, Bool.decide_eq_false] at hall ⊢
  omega

/-- A store that begins with any tracked traces and performs any operations gives the answers of a map from
places to the spans that came first, and its areas are the two parts of that map. The counts of a batch add
up to its reports, and a trace takes all its spans along when it becomes tracked. -/
theorem store_refines_placeMap (traces : List TraceId) (ops : List Operation) :
    let run := performAll Store.perform (.tracking traces) ops
    let map := performAll PlaceMap.perform (.tracking traces) ops
    run.2 = map.2 ∧ run.1.Splits map.1 ∧ (∀ b, (run.1.ingest b).2.total = b.spans.length) ∧
      ∀ t, (run.1.track t).1.allSpans.Perm run.1.allSpans := by
  obtain ⟨hshows, hanswers⟩ := (Shows.tracking traces).performAll ops
  exact ⟨hanswers, hshows.splits, hshows.ingest_total, track_allSpans_perm hshows.store⟩

end Store

end ContentProbe
