import ContentProbe.Proofs.Store.Contents

/-!
An upload under its operations. What it has derived is always what its store shows: the add interval is the
one of the add trace, the announcement is the one of the stored anchors, and exactly the traces of anchors
and the add trace are tracked. Every operation keeps this, as long as the content id is learned once.
-/

namespace ContentProbe.Upload

/-- What can be done to an upload. -/
inductive Op where
  | ingest (b : Wire.Batch)
  | publish (contentId rawKey : String)
  | fail (error : String)
  | freeze

def step (u : Upload) : Op → Upload
  | .ingest b => (u.ingest b).1
  | .publish contentId rawKey => u.publish contentId rawKey
  | .fail error => u.fail error
  | .freeze => u.freeze

/-- Performs operations one after the other. -/
def run (u : Upload) (ops : List Op) : Upload := ops.foldl step u

theorem run_append (u : Upload) (ops later : List Op) : u.run (ops ++ later) = (u.run ops).run later :=
  List.foldl_append

/-- The well-formed spans that an operation delivers. -/
def Op.spans : Op → List Span
  | .ingest b => Span.ofBatch b
  | _ => []

def delivered (ops : List Op) : List Span := ops.flatMap Op.spans

theorem mem_delivered_of_take {ops : List Op} {n : Nat} {x : Span} (hx : x ∈ delivered (ops.take n)) :
    x ∈ delivered ops := by
  obtain ⟨op, hop, hx⟩ := List.mem_flatMap.mp hx
  exact List.mem_flatMap.mpr ⟨op, List.mem_of_mem_take hop, hx⟩

def Op.published? : Op → Option Published
  | .publish contentId rawKey => some ⟨contentId, rawKey⟩
  | _ => none

/-- What operations tell of content ids. -/
def publications (ops : List Op) : List Published := ops.filterMap Op.published?

theorem publications_append (ops later : List Op) :
    publications (ops ++ later) = publications ops ++ publications later :=
  List.filterMap_append

/-- The stored announcements of the raw key; none count before the key is known. -/
def announcements (u : Upload) : List Span :=
  match u.published with
  | none => []
  | some p => anchors p.rawKey u.store

theorem mem_anchors {rawKey : String} {store : Store} {x : Span} :
    x ∈ anchors rawKey store ↔ x ∈ store.allSpans ∧ isAnchor rawKey x = true := by
  simp [anchors]

/-! The announcement that a store shows -/

/-- Every anchor of the raw key lies in a tracked trace. -/
def AnchorsTracked (rawKey : String) (store : Store) : Prop :=
  ∀ a ∈ anchors rawKey store, store.isTracked a.trace = true

/-- The tracked spans of the traces that hold an anchor. -/
def provideSpans (rawKey : String) (store : Store) : List Span :=
  ((anchors rawKey store).map (·.trace)).eraseDups.flatMap fun t => (store.tracked.get? t).getD []

theorem anchorBefore_ordersBy :
    OrdersBy anchorBefore fun a => toLex (a.start, a.trace.toNat) := by
  intro a b
  simp [anchorBefore, Prod.Lex.toLex_lt_toLex]

theorem provideOf_eq (rawKey : String) (store : Store) :
    provideOf rawKey store =
      ((firstBy? anchorBefore (anchors rawKey store)).map (·.trace)).bind fun t =>
        (Interval.ofSpans? (provideSpans rawKey store)).map fun i => ⟨t, i⟩ := by
  simp only [provideOf, provideSpans]
  cases firstBy? anchorBefore (anchors rawKey store) with
  | none => rfl
  | some first =>
      simp only [Option.bind_eq_bind, Option.bind_some, Option.map_some]
      exact (Option.map_eq_bind ..).symm

theorem mem_provideSpans {rawKey : String} {store : Store} (hs : store.WellFormed)
    (htracked : AnchorsTracked rawKey store) {x : Span} :
    x ∈ provideSpans rawKey store ↔
      x ∈ store.allSpans ∧ ∃ a ∈ anchors rawKey store, a.trace = x.trace := by
  simp only [provideSpans, List.mem_flatMap, List.mem_eraseDups, List.mem_map, Store.mem_trace_iff hs]
  constructor
  · rintro ⟨t, ⟨a, ha, hat⟩, ht, htrace, hx⟩
    exact ⟨hx, a, ha, hat.trans htrace.symm⟩
  · rintro ⟨hx, a, ha, hat⟩
    exact ⟨x.trace, ⟨a, ha, hat⟩, hat ▸ htracked a ha, rfl, hx⟩

/-- Where there is an anchor, there is a span of an announcing trace. -/
theorem firstAnchor_isSome {rawKey : String} {store : Store} (hs : store.WellFormed)
    (htracked : AnchorsTracked rawKey store) :
    (firstBy? anchorBefore (anchors rawKey store)).isSome =
      (Interval.ofSpans? (provideSpans rawKey store)).isSome := by
  rw [Bool.eq_iff_iff, Option.isSome_iff_ne_none, Option.isSome_iff_ne_none, ne_eq, ne_eq,
    firstBy?_eq_none_iff, Interval.ofSpans?_eq_none_iff, not_iff_not]
  constructor
  · intro hanchors
    refine List.eq_nil_iff_forall_not_mem.mpr fun x hx => ?_
    obtain ⟨-, a, ha, -⟩ := (mem_provideSpans hs htracked).mp hx
    simp [hanchors] at ha
  · intro hspans
    refine List.eq_nil_iff_forall_not_mem.mpr fun a ha => ?_
    have hspan : a ∈ provideSpans rawKey store :=
      (mem_provideSpans hs htracked).mpr ⟨(mem_anchors.mp ha).1, a, ha, rfl⟩
    simp [hspans] at hspan

/-- The announcement is the trace of the earliest anchor and the interval of the announcing traces, each as it
is read alone. -/
theorem provideOf_parts {rawKey : String} {store : Store} (hs : store.WellFormed)
    (htracked : AnchorsTracked rawKey store) :
    (provideOf rawKey store).map (·.trace) =
        (firstBy? anchorBefore (anchors rawKey store)).map (·.trace) ∧
      (provideOf rawKey store).map (·.interval) = Interval.ofSpans? (provideSpans rawKey store) := by
  have hboth := firstAnchor_isSome hs htracked
  rw [provideOf_eq]
  cases hfirst : firstBy? anchorBefore (anchors rawKey store) with
  | none =>
      rw [hfirst, Option.isSome_none, eq_comm, Option.isSome_eq_false_iff, Option.isNone_iff_eq_none] at hboth
      simp [hboth]
  | some a =>
      rw [hfirst, Option.isSome_some, eq_comm, Option.isSome_iff_exists] at hboth
      obtain ⟨i, hi⟩ := hboth
      simp [hi]

/-- The announcement is there as soon as an anchor is. -/
theorem provideOf_isSome_iff {rawKey : String} {store : Store} (hs : store.WellFormed)
    (htracked : AnchorsTracked rawKey store) :
    (provideOf rawKey store).isSome = true ↔ ∃ a, a ∈ anchors rawKey store := by
  have hfirst := congrArg Option.isSome (provideOf_parts hs htracked).1
  rw [Option.isSome_map, Option.isSome_map] at hfirst
  rw [hfirst, Option.isSome_iff_ne_none, ne_eq, firstBy?_eq_none_iff]
  exact ⟨List.exists_mem_of_ne_nil _, fun ⟨a, ha⟩ => List.ne_nil_of_mem ha⟩

/-- The trace of the announcement depends on the anchors only. -/
theorem firstAnchor_congr {rawKey : String} {s s' : Store}
    (hanchors : ∀ x, x ∈ anchors rawKey s ↔ x ∈ anchors rawKey s') :
    (firstBy? anchorBefore (anchors rawKey s)).map (·.trace) =
      (firstBy? anchorBefore (anchors rawKey s')).map (·.trace) := by
  apply firstBy?_map_congr anchorBefore_ordersBy _ hanchors
  intro a b _ _ hkey
  exact TraceId.eq_of_toNat_eq (Prod.mk.inj (toLex.injective hkey)).2

theorem provideOf_congr {rawKey : String} {s s' : Store}
    (hanchors : ∀ x, x ∈ anchors rawKey s ↔ x ∈ anchors rawKey s')
    (hspans : ∀ x, x ∈ provideSpans rawKey s ↔ x ∈ provideSpans rawKey s') :
    provideOf rawKey s = provideOf rawKey s' := by
  rw [provideOf_eq, provideOf_eq, firstAnchor_congr hanchors, Interval.ofSpans?_congr hspans]

/-- Stores that hold the same spans, all anchors in tracked traces, show the same announcement. -/
theorem provideOf_congr_of_spans {rawKey : String} {s s' : Store} (hs : s.WellFormed) (hs' : s'.WellFormed)
    (htracked : AnchorsTracked rawKey s) (htracked' : AnchorsTracked rawKey s')
    (hspans : ∀ x, x ∈ s.allSpans ↔ x ∈ s'.allSpans) : provideOf rawKey s = provideOf rawKey s' := by
  have hanchors (x : Span) : x ∈ anchors rawKey s ↔ x ∈ anchors rawKey s' := by
    simp only [mem_anchors, hspans]
  apply provideOf_congr hanchors
  intro x
  simp only [mem_provideSpans hs htracked, mem_provideSpans hs' htracked', hspans, hanchors]

/-! Deriving -/

theorem derive_store (u : Upload) :
    (derive u).store = u.store.trackAll (u.announcements.map (·.trace)) := by
  unfold derive announcements
  cases u.published <;> rfl

theorem derive_published (u : Upload) : (derive u).published = u.published := by
  unfold derive
  cases hp : u.published <;> simp [hp]

theorem derive_addTrace (u : Upload) : (derive u).addTrace = u.addTrace := by
  unfold derive
  cases u.published <;> rfl

theorem derive_frozen (u : Upload) : (derive u).frozen = u.frozen := by
  unfold derive
  cases u.published <;> rfl

theorem derive_error (u : Upload) : (derive u).error = u.error := by
  unfold derive
  cases u.published <;> rfl

theorem derive_add (u : Upload) :
    (derive u).add = (derive u).store.traceInterval? u.addTrace := by
  unfold derive
  cases u.published <;> rfl

theorem derive_provide (u : Upload) :
    (derive u).provide =
      match u.published with
      | none => u.provide
      | some p => provideOf p.rawKey (derive u).store := by
  unfold derive
  cases u.published <;> rfl

theorem derive_populated (u : Upload) :
    (derive u).populated = (u.populated || ((derive u).add.isSome && (derive u).provide.isSome)) := by
  unfold derive
  cases u.published <;> rfl

/-- An open upload takes a batch in and derives its intervals again. -/
theorem ingest_fst (u : Upload) (b : Wire.Batch) :
    (u.ingest b).1 = if u.frozen = true then u else derive { u with store := (u.store.ingest b).1 } := by
  unfold ingest
  split <;> rfl

theorem mem_announcements_derive {u : Upload} (hs : u.store.WellFormed) (x : Span) :
    x ∈ (derive u).announcements ↔ x ∈ u.announcements := by
  unfold announcements
  rw [derive_published]
  cases u.published with
  | none => simp
  | some p =>
      simp only [mem_anchors]
      rw [derive_store, Store.mem_allSpans_trackAll hs]

/-- What an upload has derived is what its store shows. -/
structure Settled (u : Upload) : Prop where
  store : u.store.WellFormed
  tracked : ∀ t, u.store.isTracked t = true ↔ t = u.addTrace ∨ ∃ a ∈ u.announcements, a.trace = t
  add : u.add = u.store.traceInterval? u.addTrace
  provide : u.provide = u.published.bind fun p => provideOf p.rawKey u.store
  populated : u.populated = (u.add.isSome && u.provide.isSome)

/-- What an upload has to keep for deriving to settle it: it tracks no trace without reason, and what has
been populated before will be so again. -/
structure Unsettled (u : Upload) : Prop where
  store : u.store.WellFormed
  addTracked : u.store.isTracked u.addTrace = true
  tracked : ∀ t, u.store.isTracked t = true → t = u.addTrace ∨ ∃ a ∈ u.announcements, a.trace = t
  unpublished : u.published = none → u.provide = none
  populated : u.populated = true →
    (∃ x ∈ u.store.allSpans, x.trace = u.addTrace) ∧ ∃ a, a ∈ u.announcements

theorem Settled.anchorsTracked {u : Upload} (h : u.Settled) {p : Published} (hp : u.published = some p) :
    AnchorsTracked p.rawKey u.store := by
  intro a ha
  refine (h.tracked a.trace).mpr (Or.inr ⟨a, ?_, rfl⟩)
  simpa [announcements, hp] using ha

theorem Settled.add_isSome_iff {u : Upload} (h : u.Settled) :
    u.add.isSome = true ↔ ∃ x ∈ u.store.allSpans, x.trace = u.addTrace := by
  rw [h.add, Store.traceInterval?_isSome_iff h.store]
  exact and_iff_right ((h.tracked u.addTrace).mpr (Or.inl rfl))

theorem Settled.provide_isSome_iff {u : Upload} (h : u.Settled) :
    u.provide.isSome = true ↔ ∃ a, a ∈ u.announcements := by
  cases hp : u.published with
  | none => simp [h.provide, announcements, hp]
  | some p =>
      rw [h.provide, hp, Option.bind_some, provideOf_isSome_iff h.store (h.anchorsTracked hp)]
      simp [announcements, hp]

theorem Unsettled.derive {u : Upload} (h : u.Unsettled) : (derive u).Settled := by
  have hstore : (u.derive).store.WellFormed := by
    rw [derive_store]
    exact h.store.trackAll _
  have htracked (t : TraceId) : u.derive.store.isTracked t = true ↔
      t = u.derive.addTrace ∨ ∃ a ∈ u.derive.announcements, a.trace = t := by
    simp only [derive_store, Store.isTracked_trackAll, derive_addTrace, mem_announcements_derive h.store,
      List.mem_map]
    constructor
    · rintro (ha | ht)
      · exact Or.inr ha
      · exact h.tracked t ht
    · rintro (rfl | ha)
      · exact Or.inr h.addTracked
      · exact Or.inl ha
  have hadd : u.derive.add = u.derive.store.traceInterval? u.derive.addTrace := by
    rw [derive_add, derive_addTrace]
  have hprovide : u.derive.provide = u.derive.published.bind fun p => provideOf p.rawKey u.derive.store := by
    rw [derive_provide, derive_published]
    cases hp : u.published with
    | none => simp [h.unpublished hp]
    | some p => rfl
  refine ⟨hstore, htracked, hadd, hprovide, ?_⟩
  -- Without the flag, the upload would be settled; then the flag adds nothing to the intervals.
  have hflagless : Settled { u.derive with populated := u.derive.add.isSome && u.derive.provide.isSome } :=
    ⟨hstore, htracked, hadd, hprovide, rfl⟩
  rw [derive_populated]
  cases hpop : u.populated with
  | false => rfl
  | true =>
      obtain ⟨⟨x, hx, hxt⟩, a, ha⟩ := h.populated hpop
      have hsome : u.derive.add.isSome = true := hflagless.add_isSome_iff.mpr
        ⟨x, by simpa only [derive_store, Store.mem_allSpans_trackAll h.store] using hx,
          hxt.trans (derive_addTrace u).symm⟩
      have hanchor : u.derive.provide.isSome = true := hflagless.provide_isSome_iff.mpr
        ⟨a, (mem_announcements_derive h.store a).mpr ha⟩
      simp [hsome, hanchor]

/-! Every operation keeps an upload settled -/

theorem Settled.start (addTrace : TraceId) (fileSize : Nat) : (Upload.start addTrace fileSize).Settled := by
  refine ⟨.tracking _, fun t => ?_, ?_, rfl, rfl⟩
  · simp [Upload.start, Store.isTracked_tracking, announcements]
  · exact (Store.traceInterval?_tracking [addTrace] addTrace).symm

theorem Settled.ingest {u : Upload} (h : u.Settled) (b : Wire.Batch) : (u.ingest b).1.Settled := by
  rw [ingest_fst]
  split
  · exact h
  · have hanchors {a : Span} (ha : a ∈ u.announcements) :
        a ∈ announcements { u with store := (u.store.ingest b).1 } := by
      unfold announcements at ha ⊢
      cases hp : u.published with
      | none => simp [hp] at ha
      | some p =>
          simp only [hp, mem_anchors] at ha ⊢
          exact ⟨Store.mem_allSpans_ingest h.store b ha.1, ha.2⟩
    have htracked := Store.isTracked_ingest u.store b
    refine Unsettled.derive ⟨h.store.ingest b, ?_, ?_, ?_, ?_⟩
    · exact (htracked u.addTrace).mpr ((h.tracked u.addTrace).mpr (Or.inl rfl))
    · intro t ht
      rcases (h.tracked t).mp ((htracked t).mp ht) with hadd | ⟨a, ha, hat⟩
      · exact Or.inl hadd
      · exact Or.inr ⟨a, hanchors ha, hat⟩
    · intro hp
      change u.published = none at hp
      simp [h.provide, hp]
    · intro hpop
      have hboth : u.add.isSome = true ∧ u.provide.isSome = true := by
        simpa [h.populated] using hpop
      obtain ⟨x, hx, hxt⟩ := h.add_isSome_iff.mp hboth.1
      obtain ⟨a, ha⟩ := h.provide_isSome_iff.mp hboth.2
      exact ⟨⟨x, Store.mem_allSpans_ingest h.store b hx, hxt⟩, a, hanchors ha⟩

/-- The content id may be learned while none is known. -/
theorem Settled.publish {u : Upload} (h : u.Settled) (hnew : u.published = none)
    (contentId rawKey : String) : (u.publish contentId rawKey).Settled := by
  unfold Upload.publish
  split
  · exact h
  · have hnone : u.provide = none := by
      simp [h.provide, hnew]
    refine Unsettled.derive ⟨h.store, ?_, ?_, fun _ => hnone, ?_⟩
    · exact (h.tracked u.addTrace).mpr (Or.inl rfl)
    · intro t ht
      rcases (h.tracked t).mp ht with hadd | ⟨a, ha, -⟩
      · exact Or.inl hadd
      · simp [announcements, hnew] at ha
    · intro hpop
      simp [h.populated, hnone] at hpop

theorem Settled.fail {u : Upload} (h : u.Settled) (error : String) : (u.fail error).Settled :=
  ⟨h.store, h.tracked, h.add, h.provide, h.populated⟩

/-- Freezing discards no anchor, since the trace of every anchor is tracked. -/
theorem anchors_discardPending {rawKey : String} {store : Store} (hs : store.WellFormed)
    (htracked : AnchorsTracked rawKey store) :
    anchors rawKey store.discardPending = anchors rawKey store :=
  Store.filter_allSpans_discardPending hs fun a ha hanchor => htracked a (mem_anchors.mpr ⟨ha, hanchor⟩)

theorem provideOf_discardPending {rawKey : String} {store : Store} (hs : store.WellFormed)
    (htracked : AnchorsTracked rawKey store) :
    provideOf rawKey store.discardPending = provideOf rawKey store := by
  simp only [provideOf, anchors_discardPending hs htracked]
  rfl

theorem Settled.freeze {u : Upload} (h : u.Settled) : u.freeze.Settled := by
  have hanchors : u.freeze.announcements = u.announcements := by
    unfold announcements
    cases hp : u.published with
    | none => simp [Upload.freeze, hp]
    | some p =>
        simp only [Upload.freeze, hp]
        exact anchors_discardPending h.store (h.anchorsTracked hp)
  refine ⟨h.store.discardPending, fun t => ?_, h.add, ?_, h.populated⟩
  · rw [hanchors]
    exact h.tracked t
  · change u.provide = u.published.bind fun p => provideOf p.rawKey u.store.discardPending
    rw [h.provide]
    cases hp : u.published with
    | none => rfl
    | some p => exact (provideOf_discardPending h.store (h.anchorsTracked hp)).symm

theorem published_ingest (u : Upload) (b : Wire.Batch) : (u.ingest b).1.published = u.published := by
  rw [ingest_fst]
  split
  · rfl
  · exact derive_published _

theorem published_publish (u : Upload) (contentId rawKey : String) :
    (u.publish contentId rawKey).published =
      if u.frozen = true then u.published else some ⟨contentId, rawKey⟩ := by
  unfold Upload.publish
  split
  · rfl
  · exact derive_published _

theorem error_ingest (u : Upload) (b : Wire.Batch) : (u.ingest b).1.error = u.error := by
  rw [ingest_fst]
  split
  · rfl
  · exact derive_error _

theorem error_publish (u : Upload) (contentId rawKey : String) :
    (u.publish contentId rawKey).error = u.error := by
  unfold Upload.publish
  split
  · rfl
  · exact derive_error _

theorem published_step_length (u : Upload) (op : Op) :
    (u.step op).published.toList.length ≤ u.published.toList.length + op.published?.toList.length := by
  cases op with
  | ingest b =>
      change (u.ingest b).1.published.toList.length ≤ _
      rw [published_ingest]
      omega
  | publish contentId rawKey =>
      change (u.publish contentId rawKey).published.toList.length ≤ _
      rw [published_publish]
      split
      · omega
      · simp [Op.published?]
  | fail error => exact Nat.le_add_right _ _
  | freeze => exact Nat.le_add_right _ _

/-- An operation keeps an upload settled unless it tells a second content id. -/
theorem Settled.step {u : Upload} (h : u.Settled) (op : Op)
    (honce : u.published.toList.length + op.published?.toList.length ≤ 1) : (u.step op).Settled := by
  cases op with
  | ingest b => exact h.ingest b
  | publish contentId rawKey =>
      have hnew : u.published = none := by
        cases hp : u.published with
        | none => rfl
        | some p => simp [hp, Op.published?] at honce
      exact h.publish hnew contentId rawKey
  | fail error => exact h.fail error
  | freeze => exact h.freeze

theorem length_publications_cons (op : Op) (ops : List Op) :
    (publications (op :: ops)).length = op.published?.toList.length + (publications ops).length := by
  simp only [publications, List.filterMap_cons]
  cases op.published? <;> simp [Nat.add_comm]

theorem published_run_length (u : Upload) (ops : List Op) :
    (u.run ops).published.toList.length ≤ u.published.toList.length + (publications ops).length := by
  induction ops generalizing u with
  | nil => exact Nat.le_add_right _ _
  | cons op ops ih =>
      have hstep := published_step_length u op
      have hrest : ((u.step op).run ops).published.toList.length ≤ _ := ih (u.step op)
      rw [length_publications_cons]
      exact Nat.le_trans hrest (by omega)

/-- Operations of which at most one tells a content id keep an upload settled. -/
theorem Settled.run {u : Upload} (h : u.Settled) (ops : List Op)
    (honce : u.published.toList.length + (publications ops).length ≤ 1) : (u.run ops).Settled := by
  induction ops generalizing u with
  | nil => exact h
  | cons op ops ih =>
      rw [length_publications_cons] at honce
      have hle := published_step_length u op
      exact ih (h.step op (by omega)) (by omega)

/-! What a run leaves behind -/

theorem frozen_step {u : Upload} {op : Op} (hop : op ≠ .freeze) : (u.step op).frozen = u.frozen := by
  cases op with
  | ingest b =>
      change (u.ingest b).1.frozen = u.frozen
      rw [ingest_fst]
      split
      · rfl
      · exact derive_frozen _
  | publish contentId rawKey =>
      change (u.publish contentId rawKey).frozen = u.frozen
      unfold Upload.publish
      split
      · rfl
      · exact derive_frozen _
  | fail error => rfl
  | freeze => exact absurd rfl hop

theorem addTrace_step (u : Upload) (op : Op) : (u.step op).addTrace = u.addTrace := by
  cases op with
  | ingest b =>
      change (u.ingest b).1.addTrace = u.addTrace
      rw [ingest_fst]
      split
      · rfl
      · exact derive_addTrace _
  | publish contentId rawKey =>
      change (u.publish contentId rawKey).addTrace = u.addTrace
      unfold Upload.publish
      split
      · rfl
      · exact derive_addTrace _
  | fail error => rfl
  | freeze => rfl

theorem addTrace_run (u : Upload) (ops : List Op) : (u.run ops).addTrace = u.addTrace := by
  induction ops generalizing u with
  | nil => rfl
  | cons op ops ih => exact (ih (u.step op)).trans (addTrace_step u op)

/-- The last content id that was told counts. -/
theorem published_run {u : Upload} (hopen : u.frozen = false) {ops : List Op} (hops : .freeze ∉ ops) :
    (u.run ops).published = (publications ops).getLast?.or u.published := by
  induction ops generalizing u with
  | nil => rfl
  | cons op ops ih =>
      obtain ⟨hop, hrest⟩ := List.ne_and_not_mem_of_not_mem_cons hops
      have htail := ih ((frozen_step hop.symm).trans hopen) hrest
      change ((u.step op).run ops).published = _
      rw [htail]
      cases op with
      | ingest b =>
          change _ = (publications ops).getLast?.or u.published
          rw [← published_ingest u b]
          rfl
      | publish contentId rawKey =>
          change (publications ops).getLast?.or (u.publish contentId rawKey).published =
            (⟨contentId, rawKey⟩ :: publications ops).getLast?.or u.published
          rw [published_publish, hopen, List.getLast?_cons]
          cases (publications ops).getLast? <;> rfl
      | fail error => rfl
      | freeze => exact absurd rfl hop

/-- What an operation adds it has brought. -/
theorem mem_of_mem_step {u : Upload} (hs : u.store.WellFormed) {op : Op} {x : Span}
    (hx : x ∈ (u.step op).store.allSpans) : x ∈ u.store.allSpans ∨ x ∈ op.spans := by
  cases op with
  | ingest b =>
      change x ∈ (u.ingest b).1.store.allSpans at hx
      rw [ingest_fst] at hx
      split at hx
      · exact Or.inl hx
      · rw [derive_store, Store.mem_allSpans_trackAll (hs.ingest b)] at hx
        exact Store.mem_of_mem_allSpans_ingest hs hx
  | publish contentId rawKey =>
      change x ∈ (u.publish contentId rawKey).store.allSpans at hx
      unfold Upload.publish at hx
      split at hx
      · exact Or.inl hx
      · rw [derive_store, Store.mem_allSpans_trackAll hs] at hx
        exact Or.inl hx
  | fail error => exact Or.inl hx
  | freeze => exact Or.inl ((Store.mem_allSpans_discardPending hs x).mp hx).2

theorem holds_step {u : Upload} (hopen : u.frozen = false) {spans : List Span}
    (h : u.store.Holds spans) {op : Op} (hop : op ≠ .freeze) :
    (u.step op).store.Holds (spans ++ op.spans) := by
  cases op with
  | ingest b =>
      change (u.ingest b).1.store.Holds (spans ++ Span.ofBatch b)
      simp only [ingest_fst, hopen, Bool.false_eq_true, if_false, derive_store]
      exact (h.ingest b).trackAll _
  | publish contentId rawKey =>
      change (u.publish contentId rawKey).store.Holds (spans ++ [])
      simp only [Upload.publish, hopen, Bool.false_eq_true, if_false, derive_store, List.append_nil]
      exact h.trackAll _
  | fail error => simpa [step, Upload.fail, Op.spans] using h
  | freeze => exact absurd rfl hop

/-- Until it is frozen, an upload holds the first span of every place that was delivered to it. -/
theorem holds_run {u : Upload} (hopen : u.frozen = false) {spans : List Span} (h : u.store.Holds spans)
    {ops : List Op} (hops : .freeze ∉ ops) : (u.run ops).store.Holds (spans ++ delivered ops) := by
  induction ops generalizing u spans with
  | nil => simpa [run, delivered] using h
  | cons op ops ih =>
      obtain ⟨hop, hrest⟩ := List.ne_and_not_mem_of_not_mem_cons hops
      have htail := ih ((frozen_step hop.symm).trans hopen) (holds_step hopen h hop.symm) hrest
      simpa [run, delivered, List.append_assoc] using htail

theorem holds_run_new (addTrace : TraceId) (fileSize : Nat) {ops : List Op} (hops : .freeze ∉ ops) :
    ((Upload.start addTrace fileSize).run ops).store.Holds (delivered ops) := by
  have hnew : (Upload.start addTrace fileSize).store.Holds [] := Store.Holds.tracking [addTrace]
  simpa only [List.nil_append] using holds_run rfl hnew hops

end ContentProbe.Upload
