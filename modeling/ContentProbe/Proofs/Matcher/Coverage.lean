import ContentProbe.Matcher.Basic
import ContentProbe.Proofs.Store.Contents

/-!
Matchers look at reports, measurements at well-formed spans. A matcher that a span meets as a span also holds
of its report, so that a batch with such a span is never left unmatched. What the matched batches bring to a
store differs from what all batches bring by the spans of unmatched batches alone, as long as no unmatched
batch takes the place of a span that travels in a matched one.
-/

namespace ContentProbe

namespace Matcher

/-- A span meets a matcher, as far as its well-formed fields tell. -/
def meets : Matcher → Span → Bool
  | .traceId trace, s => s.trace = trace
  | .attribute key value, s => s.attributes.hasString key value
  | .name text, s => s.name == text

theorem holds_of_meets {m : Matcher} {w : Wire.Span} {s : Span} (hs : Span.ofWire w = .ok s)
    (hm : m.meets s = true) : m.holds w = true := by
  match m, hm with
  | .traceId trace, hm =>
      have htrace : s.trace = trace := by simpa [meets] using hm
      simp [holds, Span.traceId_of_ofWire hs, htrace]
  | .attribute key value, hm =>
      refine List.any_eq_true.mpr ⟨_, Span.mem_attributes_of_ofWire hs hm, ?_⟩
      simp [isString]
  | .name text, hm =>
      rw [meets, beq_iff_eq, Span.name_of_ofWire hs] at hm
      simp [holds, hm]

theorem firstHit?_eq_none_iff {matchers : List Matcher} {b : Wire.Batch} :
    firstHit? matchers b = none ↔ ∀ w ∈ b.spans, ∀ m ∈ matchers, m.holds w = false := by
  simp [firstHit?, hit?, List.findSome?_eq_none_iff, List.findIdx?_eq_none_iff]

/-- The batches of which some span satisfies a matcher. -/
def matched (matchers : List Matcher) (batches : List Wire.Batch) : List Wire.Batch :=
  batches.filter fun b => (firstHit? matchers b).isSome

/-- The batches that no span of which satisfies a matcher. -/
def unmatched (matchers : List Matcher) (batches : List Wire.Batch) : List Wire.Batch :=
  batches.filter fun b => (firstHit? matchers b).isNone

variable {matchers : List Matcher} {batches : List Wire.Batch}

theorem mem_ofBatches_iff {s : Span} :
    s ∈ Span.ofBatches batches ↔
      s ∈ Span.ofBatches (matched matchers batches) ∨ s ∈ Span.ofBatches (unmatched matchers batches) := by
  simp only [Span.ofBatches, matched, unmatched, List.mem_flatMap, List.mem_filter]
  constructor
  · rintro ⟨b, hb, hs⟩
    cases hhit : firstHit? matchers b with
    | none => exact Or.inr ⟨b, ⟨hb, by simp [hhit]⟩, hs⟩
    | some i => exact Or.inl ⟨b, ⟨hb, by simp [hhit]⟩, hs⟩
  · rintro (⟨b, ⟨hb, -⟩, hs⟩ | ⟨b, ⟨hb, -⟩, hs⟩)
    · exact ⟨b, hb, hs⟩
    · exact ⟨b, hb, hs⟩

/-- Batches that have no span at a place may be left out. -/
theorem firstSpan?_filter {keep : Wire.Batch → Bool} {t : TraceId} {id : SpanId}
    (hleft : ∀ s ∈ Span.ofBatches (batches.filter fun b => !keep b), s.isAt t id = false) :
    firstSpan? (Span.ofBatches (batches.filter keep)) t id = firstSpan? (Span.ofBatches batches) t id := by
  induction batches with
  | nil => rfl
  | cons b batches ih =>
      have hall : Span.ofBatches (b :: batches) = Span.ofBatch b ++ Span.ofBatches batches := rfl
      cases hb : keep b with
      | true =>
          have hkept : Span.ofBatches ((b :: batches).filter keep) =
              Span.ofBatch b ++ Span.ofBatches (batches.filter keep) := by
            rw [List.filter_cons_of_pos hb]
            rfl
          rw [hall, hkept, firstSpan?_append, firstSpan?_append]
          rw [List.filter_cons_of_neg (by simp [hb])] at hleft
          rw [ih hleft]
      | false =>
          rw [List.filter_cons_of_pos (by simp [hb])] at hleft
          have hnone : firstSpan? (Span.ofBatch b) t id = none :=
            List.find?_eq_none.mpr fun s hs => by
              simp [hleft s (List.mem_append_left _ hs)]
          rw [List.filter_cons_of_neg (by simp [hb]), hall, firstSpan?_append, hnone, Option.none_or]
          exact ih fun s hs => hleft s (List.mem_append_right _ hs)

theorem firstSpan?_matched {t : TraceId} {id : SpanId}
    (hleft : ∀ s ∈ Span.ofBatches (unmatched matchers batches), s.isAt t id = false) :
    firstSpan? (Span.ofBatches (matched matchers batches)) t id =
      firstSpan? (Span.ofBatches batches) t id := by
  apply firstSpan?_filter
  simpa [unmatched] using hleft

theorem firstSpan?_unmatched {t : TraceId} {id : SpanId}
    (hleft : ∀ s ∈ Span.ofBatches (matched matchers batches), s.isAt t id = false) :
    firstSpan? (Span.ofBatches (unmatched matchers batches)) t id =
      firstSpan? (Span.ofBatches batches) t id := by
  apply firstSpan?_filter
  simpa [matched] using hleft

/-- No span of an unmatched batch disagrees with a span of a matched batch about a place. -/
def Unshadowed (matchers : List Matcher) (batches : List Wire.Batch) : Prop :=
  ∀ x ∈ Span.ofBatches (unmatched matchers batches), ∀ y ∈ Span.ofBatches (matched matchers batches),
    x.trace = y.trace → x.id = y.id → x = y

instance (matchers : List Matcher) (batches : List Wire.Batch) : Decidable (Unshadowed matchers batches) :=
  inferInstanceAs (Decidable (∀ x ∈ Span.ofBatches (unmatched matchers batches),
    ∀ y ∈ Span.ofBatches (matched matchers batches), x.trace = y.trace → x.id = y.id → x = y))

theorem isAt_eq_false_of_firstSpan? {spans : List Span} {t : TraceId} {id : SpanId}
    (h : firstSpan? spans t id = none) : ∀ s ∈ spans, s.isAt t id = false := by
  simpa [firstSpan?] using h

/-- The matched batches decide about the places that they fill. -/
theorem Unshadowed.firstSpan?_eq (h : Unshadowed matchers batches) (t : TraceId) (id : SpanId) :
    firstSpan? (Span.ofBatches batches) t id =
      (firstSpan? (Span.ofBatches (matched matchers batches)) t id).or
        (firstSpan? (Span.ofBatches (unmatched matchers batches)) t id) := by
  cases hkept : firstSpan? (Span.ofBatches (matched matchers batches)) t id with
  | none =>
      rw [Option.none_or, firstSpan?_unmatched (isAt_eq_false_of_firstSpan? hkept)]
  | some y =>
      rw [Option.some_or, ← hkept]
      cases hleft : firstSpan? (Span.ofBatches (unmatched matchers batches)) t id with
      | none => exact (firstSpan?_matched (isAt_eq_false_of_firstSpan? hleft)).symm
      | some z =>
          -- Every span at the place is then the one of the unmatched batches.
          obtain ⟨hy, hyt, hyid⟩ := mem_of_firstSpan? hkept
          obtain ⟨hz, hzt, hzid⟩ := mem_of_firstSpan? hleft
          have hzy : z = y := h z hz y hy (hzt.trans hyt.symm) (hzid.trans hyid.symm)
          obtain ⟨x, hx⟩ := exists_firstSpan?_of_mem (mem_ofBatches_iff.mpr (Or.inl hy))
          rw [hyt, hyid] at hx
          obtain ⟨hmem, hxt, hxid⟩ := mem_of_firstSpan? hx
          rw [hx, hkept]
          rcases mem_ofBatches_iff.mp hmem with hmatched | hunmatched
          · rw [← h z hz x hmatched (hzt.trans hxt.symm) (hzid.trans hxid.symm), hzy]
          · rw [h x hunmatched y hy (hxt.trans hyt.symm) (hxid.trans hyid.symm)]

/-- The unmatched batches bring their spans to the others and take none of them away. -/
theorem Unshadowed.mem_leading_iff (h : Unshadowed matchers batches) {s : Span} :
    s ∈ leading (Span.ofBatches batches) ↔
      s ∈ leading (Span.ofBatches (matched matchers batches)) ∨
        s ∈ leading (Span.ofBatches (unmatched matchers batches)) := by
  simp only [mem_leading]
  rw [h.firstSpan?_eq]
  cases hkept : firstSpan? (Span.ofBatches (matched matchers batches)) s.trace s.id with
  | none => simp
  | some y =>
      rw [Option.some_or]
      constructor
      · exact Or.inl
      · rintro (hy | hleft)
        · exact hy
        · obtain ⟨hy, hyt, hyid⟩ := mem_of_firstSpan? hkept
          rw [h s (mem_of_firstSpan? hleft).1 y hy hyt.symm hyid.symm]

end Matcher

end ContentProbe
