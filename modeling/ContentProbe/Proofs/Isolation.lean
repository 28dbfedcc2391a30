import ContentProbe.Proofs.Download.Convergence
import ContentProbe.Proofs.Upload.Convergence

/-!
Foreign traces stay apart. All spans of a node come through one store, foreign ones included, under any name
and any id. Beside a measurement runs one whose batches lack the spans of some foreign traces. As long as no
anchor lies in a foreign trace, both track the same traces and no foreign one, and outside of the foreign
traces both hold the same spans: this is what each operation keeps. Whatever is derived is derived from tracked
traces, so that both show the same.
-/

namespace ContentProbe

/-- The batch without the reported spans of foreign traces, well-formed or not. -/
def Wire.Batch.without (foreign : TraceId → Bool) (b : Wire.Batch) : Wire.Batch where
  resources := b.resources.map fun r =>
    { r with scopes := r.scopes.map fun s =>
      { s with spans := s.spans.filter fun w => !(TraceId.ofBytes? w.traceId).any foreign } }

variable {foreign : TraceId → Bool}

theorem Span.ofBatch_without (b : Wire.Batch) :
    ofBatch (b.without foreign) = (ofBatch b).filter fun s => !foreign s.trace := by
  have hspans : (b.without foreign).spans =
      b.spans.filter fun w => !(TraceId.ofBytes? w.traceId).any foreign := by
    simp only [Wire.Batch.without, Wire.Batch.spans, Wire.ResourceSpans.spans, List.flatMap_map,
      List.filter_flatMap]
  rw [ofBatch, ofBatch, hspans, List.filterMap_filter, List.filter_filterMap]
  apply List.filterMap_congr
  intro w hw
  cases hok : ofWire w with
  | error f => simp [Except.toOption]
  | ok s =>
      obtain ⟨htrace, -⟩ := Option.filter_eq_some_iff.mp (ofWire_eq_ok_iff.mp hok).1
      simp [htrace, Except.toOption, Option.filter]

/-- Leaving foreign spans out empties the foreign places and no others. -/
theorem firstSpan?_filter_foreign (spans : List Span) (t : TraceId) (id : SpanId) :
    firstSpan? (spans.filter fun s => !foreign s.trace) t id =
      if foreign t = true then none else firstSpan? spans t id := by
  cases ht : foreign t with
  | true =>
      rw [if_pos rfl, firstSpan?, List.find?_eq_none]
      intro s hs hat
      simp [(Span.isAt_iff.mp hat).1, ht] at hs
  | false =>
      have hown :
          (fun s : Span => decide ((!foreign s.trace) = true ∧ s.isAt t id = true)) = Span.isAt t id := by
        funext s
        cases hat : s.isAt t id with
        | false => simp
        | true => simp [(Span.isAt_iff.mp hat).1, ht]
      rw [if_neg Bool.false_ne_true, firstSpan?, List.find?_filter, hown, firstSpan?]

namespace Store

/-- The second store holds what the first one does, except spans of foreign traces, none of which is
tracked. -/
structure Without (foreign : TraceId → Bool) (s s' : Store) : Prop where
  store : s.WellFormed
  store' : s'.WellFormed
  tracked : ∀ t, s.isTracked t = true ↔ s'.isTracked t = true
  own : ∀ t, s.isTracked t = true → foreign t = false
  places : ∀ t id, s'.span? t id = if foreign t = true then none else s.span? t id

variable {s s' : Store}

theorem Without.mem_iff (h : Without foreign s s') (x : Span) :
    x ∈ s'.allSpans ↔ x ∈ s.allSpans ∧ foreign x.trace = false := by
  rw [mem_allSpans_iff h.store', mem_allSpans_iff h.store, h.places]
  cases foreign x.trace <;> simp

theorem Without.mem_tracked_iff (h : Without foreign s s') (x : Span) :
    x ∈ s.tracked.spans ↔ x ∈ s'.tracked.spans := by
  rw [Store.mem_tracked_iff h.store, Store.mem_tracked_iff h.store', ← h.tracked, h.mem_iff]
  constructor
  · rintro ⟨ht, hx⟩
    exact ⟨ht, hx, h.own _ ht⟩
  · rintro ⟨ht, hx, -⟩
    exact ⟨ht, hx⟩

/-- Spans of a kind that occurs in no foreign trace are in both stores or in none. -/
theorem Without.mem_filter_iff (h : Without foreign s s') {kind : Span → Bool}
    (hkind : ∀ x ∈ s.allSpans, kind x = true → foreign x.trace = false) (x : Span) :
    x ∈ s.allSpans.filter kind ↔ x ∈ s'.allSpans.filter kind := by
  rw [List.mem_filter, List.mem_filter, h.mem_iff]
  constructor
  · rintro ⟨hx, hxkind⟩
    exact ⟨⟨hx, hkind x hx hxkind⟩, hxkind⟩
  · rintro ⟨⟨hx, -⟩, hxkind⟩
    exact ⟨hx, hxkind⟩

theorem Without.tracking {traces : List TraceId} (hown : ∀ t ∈ traces, foreign t = false) :
    Without foreign (Store.tracking traces) (Store.tracking traces) := by
  have hempty (t : TraceId) (id : SpanId) : (Store.tracking traces).span? t id = none :=
    (Holds.tracking traces).places t id
  refine ⟨.tracking traces, .tracking traces, fun t => Iff.rfl, fun t ht => ?_, fun t id => ?_⟩
  · exact hown t ((isTracked_tracking traces t).mp ht)
  · rw [hempty, ite_self]

theorem Without.ingest (h : Without foreign s s') (b : Wire.Batch) :
    Without foreign (s.ingest b).1 (s'.ingest (b.without foreign)).1 := by
  refine ⟨h.store.ingest b, h.store'.ingest _, fun t => ?_, fun t ht => ?_, fun t id => ?_⟩
  · rw [isTracked_ingest, isTracked_ingest, h.tracked]
  · exact h.own t ((isTracked_ingest s b t).mp ht)
  · rw [ingest_fst, ingest_fst, span?_insertAll h.store, span?_insertAll h.store', h.places,
      Span.ofBatch_without, firstSpan?_filter_foreign]
    split <;> rfl

theorem Without.trackAll (h : Without foreign s s') {traces traces' : List TraceId}
    (hsame : ∀ t, t ∈ traces ↔ t ∈ traces') (hown : ∀ t ∈ traces, foreign t = false) :
    Without foreign (s.trackAll traces) (s'.trackAll traces') := by
  refine ⟨h.store.trackAll _, h.store'.trackAll _, fun t => ?_, fun t ht => ?_, fun t id => ?_⟩
  · rw [isTracked_trackAll, isTracked_trackAll, h.tracked, hsame]
  · rcases (isTracked_trackAll s traces t).mp ht with hnew | hold
    · exact hown t hnew
    · exact h.own t hold
  · rw [span?_trackAll, span?_trackAll, h.places]

theorem Without.discardPending (h : Without foreign s s') :
    Without foreign s.discardPending s'.discardPending := by
  refine ⟨h.store.discardPending, h.store'.discardPending, h.tracked, h.own, fun t id => ?_⟩
  apply Option.ext
  intro x
  cases ht : foreign t with
  | true =>
      have hfree : ¬ s'.isTracked t = true := fun htracked => by
        simpa [ht] using h.own t ((h.tracked t).mpr htracked)
      rw [if_pos rfl, span?_eq_some_iff h.store'.discardPending, mem_allSpans_discardPending h.store']
      constructor
      · rintro ⟨rfl, -, htracked, -⟩
        exact absurd htracked hfree
      · exact nofun
  | false =>
      rw [if_neg Bool.false_ne_true, span?_eq_some_iff h.store'.discardPending,
        span?_eq_some_iff h.store.discardPending, allSpans_discardPending, allSpans_discardPending,
        h.mem_tracked_iff]

end Store

namespace Upload

/-- The operation, with a batch that lacks the spans of foreign traces. -/
def Op.without (foreign : TraceId → Bool) : Op → Op
  | .ingest b => .ingest (b.without foreign)
  | op => op

theorem publications_map_without (ops : List Op) :
    publications (ops.map (.without foreign)) = publications ops := by
  rw [publications, List.filterMap_map]
  apply List.filterMap_congr
  intro op _
  cases op <;> rfl

/-- Two uploads of which the second one lacks foreign spans, while no foreign trace holds an anchor of any of
the content ids that are told. -/
structure Isolated (foreign : TraceId → Bool) (told : List Published) (u v : Upload) : Prop where
  store : u.store.Without foreign v.store
  published : u.published = v.published
  frozen : u.frozen = v.frozen
  known : ∀ p ∈ u.published, p ∈ told
  own : ∀ p ∈ told, ∀ a ∈ u.store.allSpans, isAnchor p.rawKey a = true → foreign a.trace = false

variable {told : List Published} {u v : Upload}

theorem Isolated.mem_announcements_iff (h : Isolated foreign told u v) (x : Span) :
    x ∈ u.announcements ↔ x ∈ v.announcements := by
  unfold announcements
  rw [← h.published]
  cases hp : u.published with
  | none => rfl
  | some p => exact h.store.mem_filter_iff (h.own p (h.known p hp)) x

theorem Isolated.own_of_mem_announcements (h : Isolated foreign told u v) {a : Span}
    (ha : a ∈ u.announcements) : foreign a.trace = false := by
  unfold announcements at ha
  cases hp : u.published with
  | none => simp [hp] at ha
  | some p =>
      rw [hp] at ha
      obtain ⟨hx, hanchor⟩ := mem_anchors.mp ha
      exact h.own p (h.known p hp) a hx hanchor

theorem Isolated.derive (h : Isolated foreign told u v) : Isolated foreign told u.derive v.derive := by
  refine ⟨?_, ?_, ?_, ?_, ?_⟩
  · rw [derive_store, derive_store]
    apply h.store.trackAll
    · simp only [List.mem_map, h.mem_announcements_iff, implies_true]
    · intro t ht
      obtain ⟨a, ha, rfl⟩ := List.mem_map.mp ht
      exact h.own_of_mem_announcements ha
  · rw [derive_published, derive_published, h.published]
  · rw [derive_frozen, derive_frozen, h.frozen]
  · rw [derive_published]
    exact h.known
  · rw [derive_store]
    intro p hp a ha
    exact h.own p hp a ((Store.mem_allSpans_trackAll h.store.store _ a).mp ha)

theorem Isolated.step (h : Isolated foreign told u v) {op : Op} (hknown : ∀ p ∈ op.published?, p ∈ told)
    (hown : ∀ p ∈ told, ∀ a ∈ op.spans, isAnchor p.rawKey a = true → foreign a.trace = false) :
    Isolated foreign told (u.step op) (v.step (op.without foreign)) := by
  cases op with
  | ingest b =>
      change Isolated foreign told (u.ingest b).1 (v.ingest (b.without foreign)).1
      rw [ingest_fst, ingest_fst, ← h.frozen]
      split
      · exact h
      · refine Isolated.derive ⟨h.store.ingest b, h.published, rfl, h.known, fun p hp a ha => ?_⟩
        rcases Store.mem_of_mem_allSpans_ingest h.store.store ha with hold | hnew
        · exact h.own p hp a hold
        · exact hown p hp a hnew
  | publish contentId rawKey =>
      change Isolated foreign told (u.publish contentId rawKey) (v.publish contentId rawKey)
      unfold Upload.publish
      rw [← h.frozen]
      split
      · exact h
      · exact Isolated.derive ⟨h.store, rfl, rfl, hknown, h.own⟩
  | fail error => exact ⟨h.store, h.published, h.frozen, h.known, h.own⟩
  | freeze =>
      refine ⟨h.store.discardPending, h.published, rfl, h.known, fun p hp a ha => ?_⟩
      exact h.own p hp a ((Store.mem_allSpans_discardPending h.store.store a).mp ha).2

theorem Isolated.run (h : Isolated foreign told u v) {ops : List Op}
    (hknown : ∀ p ∈ publications ops, p ∈ told)
    (hown : ∀ p ∈ told, ∀ a ∈ delivered ops, isAnchor p.rawKey a = true → foreign a.trace = false) :
    Isolated foreign told (u.run ops) (v.run (ops.map (.without foreign))) := by
  induction ops generalizing u v with
  | nil => exact h
  | cons op ops ih =>
      have hstep : Isolated foreign told (u.step op) (v.step (op.without foreign)) := by
        refine h.step (fun p hp => hknown p ?_) fun p hp a ha => hown p hp a ?_
        · exact List.mem_filterMap.mpr ⟨op, List.mem_cons_self, hp⟩
        · exact List.mem_append_left _ ha
      refine ih hstep (fun p hp => hknown p ?_) fun p hp a ha => hown p hp a ?_
      · obtain ⟨later, hlater, hp⟩ := List.mem_filterMap.mp hp
        exact List.mem_filterMap.mpr ⟨later, List.mem_cons_of_mem _ hlater, hp⟩
      · exact List.mem_append_right _ ha

theorem Isolated.start {addTrace : TraceId} (hadd : foreign addTrace = false) (fileSize : Nat)
    (told : List Published) :
    Isolated foreign told (Upload.start addTrace fileSize) (Upload.start addTrace fileSize) := by
  refine ⟨.tracking (by simpa using hadd), rfl, rfl, nofun, fun p _ a ha => ?_⟩
  have hempty : (Upload.start addTrace fileSize).store.allSpans = [] := Store.allSpans_tracking [addTrace]
  simp [hempty] at ha

/-- An isolated upload derives the same: frozen, both would hold the same spans. -/
theorem Isolated.agree (h : Isolated foreign told u v) (hu : u.Settled) (hv : v.Settled)
    (htrace : u.addTrace = v.addTrace) :
    u.add = v.add ∧ u.provide = v.provide ∧ u.populated = v.populated ∧
      u.store.spansByTrace = v.store.spansByTrace := by
  have hspans (x : Span) : x ∈ u.freeze.store.allSpans ↔ x ∈ v.freeze.store.allSpans := by
    change x ∈ u.store.discardPending.allSpans ↔ x ∈ v.store.discardPending.allSpans
    rw [Store.allSpans_discardPending, Store.allSpans_discardPending, h.store.mem_tracked_iff]
  -- Freezing changes none of the fields.
  have hfrozen := hu.freeze.agree hv.freeze htrace h.published hspans
  exact hfrozen

theorem agree_without {addTrace : TraceId} (hadd : foreign addTrace = false) (fileSize : Nat) {ops : List Op}
    (honce : (publications ops).length ≤ 1)
    (hown : ∀ p ∈ publications ops, ∀ a ∈ delivered ops,
      isAnchor p.rawKey a = true → foreign a.trace = false) :
    let u := (Upload.start addTrace fileSize).run ops
    let v := (Upload.start addTrace fileSize).run (ops.map (.without foreign))
    u.add = v.add ∧ u.provide = v.provide ∧ u.populated = v.populated ∧
      u.store.spansByTrace = v.store.spansByTrace := by
  intro u v
  have hsettled (ops : List Op) (honce : (publications ops).length ≤ 1) :
      ((Upload.start addTrace fileSize).run ops).Settled :=
    (Settled.start addTrace fileSize).run ops (by simpa [Upload.start] using honce)
  have hisolated : Isolated foreign (publications ops) u v :=
    (Isolated.start hadd fileSize _).run (fun _ hp => hp) hown
  have htrace : u.addTrace = v.addTrace := by
    rw [addTrace_run, addTrace_run]
  exact hisolated.agree (hsettled _ honce) (hsettled _ (by rwa [publications_map_without])) htrace

end Upload

namespace Download

/-- The operation, with a batch that lacks the spans of foreign traces. -/
def Op.without (foreign : TraceId → Bool) : Op → Op
  | .ingest b => .ingest (b.without foreign)
  | op => op

theorem transfers_map_without (ops : List Op) : transfers (ops.map (.without foreign)) = transfers ops := by
  rw [transfers, List.filterMap_map]
  apply List.filterMap_congr
  intro op _
  cases op <;> rfl

/-- Two downloads of one request of which the second one lacks foreign spans, while no foreign trace holds an
anchor. -/
structure Isolated (foreign : TraceId → Bool) (d e : Download) : Prop where
  store : d.store.Without foreign e.store
  contentId : d.contentId = e.contentId
  frozen : d.frozen = e.frozen
  own : ∀ a ∈ d.store.allSpans, isAnchor d.contentId a = true → foreign a.trace = false

variable {d e : Download}

theorem Isolated.mem_anchors_iff (h : Isolated foreign d e) (x : Span) :
    x ∈ anchors d.contentId d.store ↔ x ∈ anchors e.contentId e.store := by
  rw [← h.contentId]
  exact h.store.mem_filter_iff h.own x

theorem Isolated.derive (h : Isolated foreign d e) : Isolated foreign d.derive e.derive := by
  refine ⟨?_, ?_, ?_, ?_⟩
  · rw [derive_store, derive_store]
    apply h.store.trackAll
    · simp only [mem_searchTraces, h.mem_anchors_iff, implies_true]
    · intro t ht
      obtain ⟨a, ha, rfl⟩ := mem_searchTraces.mp ht
      obtain ⟨hx, hanchor⟩ := mem_anchors.mp ha
      exact h.own a hx hanchor
  · rw [derive_contentId, derive_contentId, h.contentId]
  · rw [derive_frozen, derive_frozen, h.frozen]
  · rw [derive_store, derive_contentId]
    intro a ha
    exact h.own a ((Store.mem_allSpans_trackAll h.store.store _ a).mp ha)

theorem Isolated.step (h : Isolated foreign d e) {op : Op}
    (hown : ∀ a ∈ op.spans, isAnchor d.contentId a = true → foreign a.trace = false) :
    Isolated foreign (d.step op) (e.step (op.without foreign)) := by
  cases op with
  | ingest b =>
      change Isolated foreign (d.ingest b).1 (e.ingest (b.without foreign)).1
      rw [ingest_fst, ingest_fst, ← h.frozen]
      split
      · exact h
      · refine Isolated.derive ⟨h.store.ingest b, h.contentId, rfl, fun a ha => ?_⟩
        rcases Store.mem_of_mem_allSpans_ingest h.store.store ha with hold | hnew
        · exact h.own a hold
        · exact hown a hnew
  | finish t => exact ⟨h.store, h.contentId, h.frozen, h.own⟩
  | fail error => exact ⟨h.store, h.contentId, h.frozen, h.own⟩
  | freeze =>
      refine ⟨h.store.discardPending, h.contentId, rfl, fun a ha => ?_⟩
      exact h.own a ((Store.mem_allSpans_discardPending h.store.store a).mp ha).2

theorem Isolated.run (h : Isolated foreign d e) {ops : List Op}
    (hown : ∀ a ∈ delivered ops, isAnchor d.contentId a = true → foreign a.trace = false) :
    Isolated foreign (d.run ops) (e.run (ops.map (.without foreign))) := by
  induction ops generalizing d e with
  | nil => exact h
  | cons op ops ih =>
      refine ih (h.step fun a ha => hown a (List.mem_append_left _ ha)) fun a ha => ?_
      rw [(request_step d op).1]
      exact hown a (List.mem_append_right _ ha)

theorem Isolated.ofContent (contentId : String) {catTrace : TraceId} (hcat : foreign catTrace = false)
    (start : Nat) :
    Isolated foreign (Download.ofContent contentId catTrace start)
      (Download.ofContent contentId catTrace start) := by
  refine ⟨.tracking (by simpa using hcat), rfl, rfl, fun a ha => ?_⟩
  have hempty : (Download.ofContent contentId catTrace start).store.allSpans = [] :=
    Store.allSpans_tracking [catTrace]
  simp [hempty] at ha

theorem Isolated.inSearch_iff (h : Isolated foreign d e) (x : Span) :
    InSearch d.contentId d.store x ↔ InSearch e.contentId e.store x := by
  simp only [InSearch, h.store.mem_iff, ← h.mem_anchors_iff]
  constructor
  · rintro ⟨hx, a, ha, hat⟩
    obtain ⟨hmem, hanchor⟩ := mem_anchors.mp ha
    exact ⟨⟨hx, hat ▸ h.own a hmem hanchor⟩, a, ha, hat⟩
  · rintro ⟨⟨hx, -⟩, ha⟩
    exact ⟨hx, ha⟩

/-- An isolated download derives the same: frozen, both would hold the same spans. Which of two tied queries
to an index is shown is left open; when they began is not. -/
theorem Isolated.agree (h : Isolated foreign d e) (hd : d.Settled) (he : e.Settled)
    (hcat : d.catTrace = e.catTrace) :
    (d.providers = e.providers ∧ d.idleBroadcast = e.idleBroadcast ∧
      d.indexQuery.map (·.start) = e.indexQuery.map (·.start) ∧ d.firstBlock = e.firstBlock ∧
      d.discovery = e.discovery ∧ d.done = e.done ∧ d.store.spansByTrace = e.store.spansByTrace) ∧
      (Untied d.contentId d.store.allSpans → d.indexQuery = e.indexQuery) := by
  constructor
  · have hspans (x : Span) : x ∈ d.freeze.store.allSpans ↔ x ∈ e.freeze.store.allSpans := by
      change x ∈ d.store.discardPending.allSpans ↔ x ∈ e.store.discardPending.allSpans
      rw [Store.allSpans_discardPending, Store.allSpans_discardPending, h.store.mem_tracked_iff]
    -- Freezing changes none of the fields.
    have hfrozen := hd.freeze.agree_but_for_ties he.freeze ⟨h.contentId, hcat⟩ hspans
    exact hfrozen
  · intro huntied
    obtain ⟨xs, hxs, hx⟩ := hd.indexQuery
    obtain ⟨ys, hys, hy⟩ := he.indexQuery
    rw [hx, hy]
    apply indexQueryOf_congr_of_untied hd.store huntied hxs
    intro x _
    rw [hxs, hys, h.inSearch_iff]

theorem agree_without (contentId : String) {catTrace : TraceId} (hcat : foreign catTrace = false)
    (start : Nat) {ops : List Op}
    (hown : ∀ a ∈ delivered ops, isAnchor contentId a = true → foreign a.trace = false) :
    let d := (Download.ofContent contentId catTrace start).run ops
    let e := (Download.ofContent contentId catTrace start).run (ops.map (.without foreign))
    (d.providers = e.providers ∧ d.idleBroadcast = e.idleBroadcast ∧
      d.indexQuery.map (·.start) = e.indexQuery.map (·.start) ∧ d.firstBlock = e.firstBlock ∧
      d.discovery = e.discovery ∧ d.done = e.done ∧ d.store.spansByTrace = e.store.spansByTrace) ∧
      (Untied contentId d.store.allSpans → d.indexQuery = e.indexQuery) ∧ d.isComplete = e.isComplete := by
  intro d e
  have hstart : (Download.ofContent contentId catTrace start).Settled := .ofContent contentId catTrace start
  have hisolated : Isolated foreign d e := (Isolated.ofContent contentId hcat start).run hown
  obtain ⟨hid, hdcat⟩ := request_run (Download.ofContent contentId catTrace start) ops
  obtain ⟨-, hecat⟩ := request_run (Download.ofContent contentId catTrace start) (ops.map (.without foreign))
  obtain ⟨hagree, huntied⟩ := hisolated.agree (hstart.run _) (hstart.run _) (hdcat.trans hecat.symm)
  have htransfer : d.transfer = e.transfer := by
    rw [transfer_run, transfer_run, transfers_map_without]
  have hcomplete : d.isComplete = e.isComplete := by
    obtain ⟨-, -, -, -, -, hdone, -⟩ := hagree
    rw [isComplete, isComplete, hdone, htransfer]
  exact ⟨hagree, fun h => huntied (hid.symm ▸ h), hcomplete⟩

end Download

/-- Deleting the spans of foreign traces from all batches changes nothing that a measurement shows after any
of its operations, as long as its own trace is not foreign and no foreign trace is delivered a well-formed
anchor: for an upload that is told at most one content id, an announcement of its raw key, and for a download,
a search for its content id. Between tied queries to an index a download may show either. -/
theorem measurements_isolated (foreign : TraceId → Bool) :
    (∀ (addTrace : TraceId) (fileSize : Nat) (ops : List Upload.Op), foreign addTrace = false →
      (Upload.publications ops).length ≤ 1 →
      (∀ p ∈ Upload.publications ops, ∀ a ∈ Upload.delivered ops,
        Upload.isAnchor p.rawKey a = true → foreign a.trace = false) → ∀ n,
      let u := (Upload.start addTrace fileSize).run (ops.take n)
      let v := (Upload.start addTrace fileSize).run ((ops.map (.without foreign)).take n)
      u.add = v.add ∧ u.provide = v.provide ∧ u.populated = v.populated ∧ u.isComplete = v.isComplete ∧
        u.store.spansByTrace = v.store.spansByTrace) ∧
    ∀ (contentId : String) (catTrace : TraceId) (start : Nat) (ops : List Download.Op),
      foreign catTrace = false →
      (∀ a ∈ Download.delivered ops, Download.isAnchor contentId a = true → foreign a.trace = false) → ∀ n,
      let d := (Download.ofContent contentId catTrace start).run (ops.take n)
      let e := (Download.ofContent contentId catTrace start).run ((ops.map (.without foreign)).take n)
      d.providers = e.providers ∧ d.idleBroadcast = e.idleBroadcast ∧
        d.indexQuery.map (·.start) = e.indexQuery.map (·.start) ∧ d.firstBlock = e.firstBlock ∧
        d.discovery = e.discovery ∧ d.done = e.done ∧ d.isComplete = e.isComplete ∧
        d.store.spansByTrace = e.store.spansByTrace ∧
        (Download.Untied contentId d.store.allSpans → d.indexQuery = e.indexQuery) := by
  constructor
  · intro addTrace fileSize ops hadd honce hown n u v
    have htaken : (Upload.publications (ops.take n)).Sublist (Upload.publications ops) :=
      (List.take_sublist n ops).filterMap _
    obtain ⟨hadd, hprovide, hpopulated, htraces⟩ :=
      Upload.agree_without hadd fileSize (htaken.length_le.trans honce) fun p hp a ha =>
        hown p (htaken.subset hp) a (Upload.mem_delivered_of_take ha)
    rw [List.map_take] at hadd hprovide hpopulated htraces
    exact ⟨hadd, hprovide, hpopulated, hpopulated, htraces⟩
  · intro contentId catTrace start ops hcat hown n d e
    obtain ⟨⟨hproviders, hidle, hquery, hblock, hdiscovery, hdone, htraces⟩, huntied, hcomplete⟩ :=
      Download.agree_without contentId hcat start fun a ha => hown a (Download.mem_delivered_of_take ha)
    rw [List.map_take] at hproviders hidle hquery hblock hdiscovery hdone htraces huntied hcomplete
    exact ⟨hproviders, hidle, hquery, hblock, hdiscovery, hdone, hcomplete, htraces, huntied⟩

/-- An upload beside a foreign announcement, which has the span ids of its own. -/
def crowdedUpload : List Upload.Op :=
  [.ingest (.ofSpans [.ofNumbers 7 1 "add" 10 20 [] [],
      .ofNumbers 5 1 Names.provide 1 2 [⟨Names.provideKey, some (.string "other")⟩] [],
      .ofNumbers 9 1 Names.provide 30 40 [⟨Names.provideKey, some (.string "raw")⟩] []]),
    .publish "cid" "raw", .ingest (.ofSpans [.ofNumbers 5 2 "child" 3 90 [] []])]

/-- A search beside a foreign request that is handled, asks the routing table and an index and searches for
other content. -/
def crowdedSearch : List Download.Op :=
  [.ingest (.ofSpans [.ofNumbers 5 1 Names.handler 1 2 [] [], .ofNumbers 5 2 Names.routingQuery 1 2 [] [],
      .ofNumbers 5 3 Names.findProviders 1 2 [⟨Names.findProvidersCid, some (.string "other")⟩] [],
      .ofNumbers 9 1 Names.findProviders 20 80 [⟨Names.findProvidersCid, some (.string "cid")⟩] []]),
    .ingest (.ofSpans [.ofNumbers 5 4 Names.indexQuery 3 4 [] [], .ofNumbers 9 4 Names.indexQuery 30 40 [] [],
      .ofNumbers 7 1 Names.handler 10 90 [] []]), .finish ⟨none, 5, 1⟩]

theorem crowded_measurements_isolated :
    let foreign (t : TraceId) : Bool := t = .ofNat 5
    let upload := Upload.start (.ofNat 7) 100
    let download := Download.ofContent "cid" (.ofNat 7) 0
    let u := upload.run (crowdedUpload.take 3)
    let v := upload.run ((crowdedUpload.map (.without foreign)).take 3)
    let d := download.run (crowdedSearch.take 2)
    let e := download.run ((crowdedSearch.map (.without foreign)).take 2)
    (Upload.delivered (crowdedUpload.map (.without foreign))).length = 2 ∧
      (Download.delivered (crowdedSearch.map (.without foreign))).length = 3 ∧
      u.provide = v.provide ∧ u.populated = v.populated ∧ u.store.spansByTrace = v.store.spansByTrace ∧
      v.provide = some ⟨.ofNat 9, ⟨30, 40⟩⟩ ∧
      d.discovery = e.discovery ∧ d.store.spansByTrace = e.store.spansByTrace ∧ d.indexQuery = e.indexQuery ∧
      e.discovery = some .index ∧ e.indexQuery = some ⟨30, 40, none⟩ := by
  intro foreign upload download u v d e
  obtain ⟨hupload, hdownload⟩ := measurements_isolated foreign
  obtain ⟨-, hprovide, hpopulated, -, hspans⟩ :=
    hupload (.ofNat 7) 100 crowdedUpload (by decide) (by decide) (by decide) 3
  obtain ⟨-, -, -, -, hdiscovery, -, -, htraces, hquery⟩ :=
    hdownload "cid" (.ofNat 7) 0 crowdedSearch (by decide) (by decide) 2
  exact ⟨by decide, by decide, hprovide, hpopulated, hspans, by decide, hdiscovery, htraces,
    hquery (by decide), by decide, by decide⟩

end ContentProbe
