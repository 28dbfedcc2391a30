import ContentProbe.Proofs.Trace.Ids
import ContentProbe.Trace.Span

/-!
What a well-formed span keeps of its report: its trace is the one whose bytes were reported, its name is the
reported one, and every attribute that it has was reported with the same value.
-/

namespace ContentProbe

open ContentProbe.Text

/-- A report by its numbers, of a span without parent. -/
def Wire.Span.ofNumbers (trace id : Nat) (name : String) (start finish : UInt64)
    (attributes : List Wire.Attribute) (events : List Wire.Event) : Wire.Span :=
  { traceId := bytesOfNat 16 trace, spanId := bytesOfNat 8 id, parentId := [], name, start, finish, attributes,
    events }

/-- A batch of one resource with one scope. -/
def Wire.Batch.ofSpans (spans : List Wire.Span) : Wire.Batch := .nested [[spans]]

@[simp] theorem Wire.Batch.spans_nested (spans : List (List (List Wire.Span))) :
    (Batch.nested spans).spans = spans.flatten.flatten := by
  simp only [Batch.spans, Batch.nested, ResourceSpans.spans, List.flatMap_def, List.map_map, Function.comp_def,
    List.map_id']
  exact List.flatten_flatten.symm

@[simp] theorem Wire.Batch.spans_ofSpans (spans : List Wire.Span) : (Batch.ofSpans spans).spans = spans := by
  simp [ofSpans]

namespace Attributes

theorem lookup_insertEntry (key : String) (value : Scalar) (entries : List (String × Scalar)) (k : String) :
    (insertEntry key value entries).lookup k = if k = key then some value else entries.lookup k := by
  induction entries with
  | nil =>
      by_cases hk : k = key
      · simp [insertEntry, hk]
      · simp [insertEntry, hk, List.lookup_cons, beq_eq_false_iff_ne.mpr hk]
  | cons e entries ih =>
      obtain ⟨next, old⟩ := e
      unfold insertEntry
      split
      · by_cases hk : k = key
        · simp [hk]
        · simp [hk, List.lookup_cons, beq_eq_false_iff_ne.mpr hk]
      · split
        · rename_i heq
          by_cases hk : k = key
          · simp [hk]
          · have hnext : (k == next) = false := beq_eq_false_iff_ne.mpr (heq ▸ hk)
            simp [hk, List.lookup_cons, beq_eq_false_iff_ne.mpr hk, hnext]
        · rename_i hne
          by_cases hnext : k = next
          · have hk : k ≠ key := fun h => hne (h.symm.trans hnext)
            simp [hnext, hnext ▸ hk]
          · simp [List.lookup_cons, beq_eq_false_iff_ne.mpr hnext, ih]

theorem get?_insert (a : Attributes) (key : String) (value : Scalar) (k : String) :
    (a.insert key value).get? k = if k = key then some value else a.get? k :=
  lookup_insertEntry key value a.entries k

theorem ofValue?_eq_string_iff {v : Wire.Value} {text : String} :
    Scalar.ofValue? v = some (.string text) ↔ v = .string text := by
  cases v <;> simp [Scalar.ofValue?]

/-- Every string that was stored was reported. -/
theorem mem_of_get?_foldl_push {attributes : List Wire.Attribute} {key text : String}
    (h : (attributes.foldl push empty).get? key = some (.string text)) :
    ⟨key, some (.string text)⟩ ∈ attributes := by
  induction attributes using List.reverseRecOn with
  | nil => simp [get?, empty] at h
  | append_singleton attributes w ih =>
      rw [List.foldl_append, List.foldl_cons, List.foldl_nil, push] at h
      split at h
      · rename_i scalar hscalar
        rw [get?_insert] at h
        split at h
        · rename_i hkey
          obtain ⟨v, hv, hstring⟩ := Option.bind_eq_some_iff.mp (hscalar.trans h)
          have hw : w = ⟨key, some (.string text)⟩ := by
            rw [ofValue?_eq_string_iff.mp hstring] at hv
            cases w
            simp_all only
          exact List.mem_append_right _ (List.mem_singleton.mpr hw.symm)
        · exact List.mem_append_left _ (ih h)
      · exact List.mem_append_left _ (ih h)

theorem mem_of_hasString {attributes : List Wire.Attribute} {a : Attributes}
    (ha : ofWire? attributes = some a) {key text : String} (h : a.hasString key text = true) :
    ⟨key, some (.string text)⟩ ∈ attributes := by
  have hstored : a = attributes.foldl push empty := by
    unfold ofWire? at ha
    split at ha
    · cases ha
    · exact (Option.some.inj ha).symm
  have hget : a.get? key = some (.string text) := by
    rw [hasString, beq_iff_eq, string?] at h
    split at h
    · rename_i found hfound
      rw [hfound, Option.some.inj h]
    · cases h
  exact mem_of_get?_foldl_push (hstored ▸ hget)

end Attributes

namespace Span

/-- A report is well-formed if it passes every check, and these are the fields of its span. -/
theorem ofWire_eq_ok_iff {w : Wire.Span} {s : Span} :
    ofWire w = .ok s ↔
      (TraceId.ofBytes? w.traceId).filter (!·.isZero) = some s.trace ∧
        (SpanId.ofBytes? w.spanId).filter (!·.isZero) = some s.id ∧
        w.start ≠ 0 ∧ ¬ w.finish < w.start ∧
        attributesOf w.name w.attributes = .ok s.attributes ∧
        w.events.mapM (eventOf w.name) = .ok s.events ∧
        s.parent = (SpanId.ofBytes? w.parentId).getD .zero ∧
        s.name = w.name ∧ s.start = w.start.toNat ∧ s.finish = w.finish.toNat := by
  obtain ⟨trace, id, parent, name, start, finish, attributes, events⟩ := s
  unfold ofWire
  cases (TraceId.ofBytes? w.traceId).filter (!·.isZero) with
  | none => simp [throw, throwThe, MonadExceptOf.throw]
  | some t =>
      cases (SpanId.ofBytes? w.spanId).filter (!·.isZero) with
      | none => simp [throw, throwThe, MonadExceptOf.throw]
      | some i =>
          by_cases hstart : w.start = 0
          · simp [hstart, throw, throwThe, MonadExceptOf.throw, bind, Except.bind]
          · by_cases hfinish : w.finish < w.start
            · simp [hstart, hfinish, throw, throwThe, MonadExceptOf.throw, bind, Except.bind]
            · cases attributesOf w.name w.attributes with
              | error f => simp [hstart, hfinish, bind, Except.bind]
              | ok a =>
                  cases w.events.mapM (eventOf w.name) with
                  | error f => simp [hstart, hfinish, bind, Except.bind]
                  | ok es =>
                      simp only [bind, Except.bind, pure, Except.pure, hstart, hfinish, if_false,
                        Except.ok.injEq, Span.mk.injEq, Option.some.injEq, ne_eq, not_false_eq_true, true_and]
                      constructor
                      · rintro ⟨rfl, rfl, rfl, rfl, rfl, rfl, rfl, rfl⟩
                        simp
                      · rintro ⟨rfl, rfl, rfl, rfl, rfl, rfl, rfl, rfl⟩
                        simp

theorem traceId_of_ofWire {w : Wire.Span} {s : Span} (h : ofWire w = .ok s) :
    w.traceId = s.trace.toBytes := by
  obtain ⟨hbytes, -⟩ := Option.filter_eq_some_iff.mp (ofWire_eq_ok_iff.mp h).1
  exact (TraceId.toBytes_of_ofBytes? hbytes).symm

theorem name_of_ofWire {w : Wire.Span} {s : Span} (h : ofWire w = .ok s) : s.name = w.name := by
  obtain ⟨-, -, -, -, -, -, -, hname, -⟩ := ofWire_eq_ok_iff.mp h
  exact hname

theorem mem_attributes_of_ofWire {w : Wire.Span} {s : Span} (h : ofWire w = .ok s) {key text : String}
    (hstring : s.attributes.hasString key text = true) : ⟨key, some (.string text)⟩ ∈ w.attributes := by
  obtain ⟨-, -, -, -, hattributes, -⟩ := ofWire_eq_ok_iff.mp h
  unfold attributesOf at hattributes
  split at hattributes
  · rename_i a ha
    exact Attributes.mem_of_hasString (ha.trans (congrArg some (Except.ok.inj hattributes))) hstring
  · cases hattributes

/-- The well-formed spans of a batch, in their order. -/
def ofBatch (b : Wire.Batch) : List Span := b.spans.filterMap fun w => (ofWire w).toOption

theorem mem_ofBatch {b : Wire.Batch} {s : Span} : s ∈ ofBatch b ↔ ∃ w ∈ b.spans, ofWire w = .ok s := by
  have hoption (w : Wire.Span) : (ofWire w).toOption = some s ↔ ofWire w = .ok s := by
    cases ofWire w <;> simp [Except.toOption]
  simp only [ofBatch, List.mem_filterMap, hoption]

/-- A report that ends before it starts is not well-formed. -/
theorem start_le_finish_of_mem_ofBatch {b : Wire.Batch} {s : Span} (hs : s ∈ ofBatch b) :
    s.start ≤ s.finish := by
  obtain ⟨w, -, hw⟩ := mem_ofBatch.mp hs
  obtain ⟨-, -, -, hordered, -, -, -, -, hstart, hfinish⟩ := ofWire_eq_ok_iff.mp hw
  rw [hstart, hfinish]
  exact UInt64.le_iff_toNat_le.mp (UInt64.not_lt.mp hordered)

/-- The well-formed spans of batches, in their order. -/
def ofBatches (batches : List Wire.Batch) : List Span := batches.flatMap ofBatch

end Span

end ContentProbe
