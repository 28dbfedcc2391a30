import ContentProbe.Proofs.Download.Readings
import ContentProbe.Proofs.Store.Contents

/-!
A download under its operations. What it has derived is always what its store shows, and exactly the search
traces and the trace of the request are tracked. Every operation keeps this.
-/

namespace ContentProbe.Download

/-- What can be done to a download. -/
inductive Op where
  | ingest (b : Wire.Batch)
  | finish (t : Transfer)
  | fail (error : String)
  | freeze

def step (d : Download) : Op → Download
  | .ingest b => (d.ingest b).1
  | .finish t => d.finish t
  | .fail error => d.fail error
  | .freeze => d.freeze

/-- Performs operations one after the other. -/
def run (d : Download) (ops : List Op) : Download := ops.foldl step d

theorem run_append (d : Download) (ops later : List Op) : d.run (ops ++ later) = (d.run ops).run later :=
  List.foldl_append

/-- The well-formed spans that an operation delivers. -/
def Op.spans : Op → List Span
  | .ingest b => Span.ofBatch b
  | _ => []

def delivered (ops : List Op) : List Span := ops.flatMap Op.spans

theorem mem_delivered_of_take {ops : List Op} {n : Nat} {x : Span} (hx : x ∈ delivered (ops.take n)) :
    x ∈ delivered ops := by
  obtain ⟨op, hop, hx⟩ := List.mem_flatMap.mp hx
  exact List.mem_flatMap.mpr ⟨op, List.mem_of_mem_take hop, hx⟩

def Op.transfer? : Op → Option Transfer
  | .finish t => some t
  | _ => none

/-- The transfers that operations tell of. -/
def transfers (ops : List Op) : List Transfer := ops.filterMap Op.transfer?

def Op.failure? : Op → Option String
  | .fail error => some error
  | _ => none

/-- The failures that operations tell of. -/
def failures (ops : List Op) : List String := ops.filterMap Op.failure?

/-! Search traces -/

theorem mem_anchors {contentId : String} {store : Store} {x : Span} :
    x ∈ anchors contentId store ↔ x ∈ store.allSpans ∧ isAnchor contentId x = true := by
  simp [anchors]

theorem mem_searchTraces {contentId : String} {store : Store} {t : TraceId} :
    t ∈ searchTraces contentId store ↔ ∃ a ∈ anchors contentId store, a.trace = t := by
  simp [searchTraces]

/-- A stored span of a trace that holds an anchor. -/
def InSearch (contentId : String) (store : Store) (x : Span) : Prop :=
  x ∈ store.allSpans ∧ ∃ a ∈ anchors contentId store, a.trace = x.trace

/-- Every anchor of the content id lies in a tracked trace. -/
def AnchorsTracked (contentId : String) (store : Store) : Prop :=
  ∀ a ∈ anchors contentId store, store.isTracked a.trace = true

theorem mem_spansOf {store : Store} (hs : store.WellFormed) {traces : List TraceId} {x : Span} :
    x ∈ spansOf store traces ↔ x.trace ∈ traces ∧ store.isTracked x.trace = true ∧ x ∈ store.allSpans := by
  simp only [spansOf, List.mem_flatMap, Store.mem_trace_iff hs]
  constructor
  · rintro ⟨t, ht, htracked, rfl, hx⟩
    exact ⟨ht, htracked, hx⟩
  · rintro ⟨ht, htracked, hx⟩
    exact ⟨x.trace, ht, htracked, rfl, hx⟩

/-! Deriving -/

/-- The spans of the request. -/
def catSpans (d : Download) : List Span := spansOf d.store [d.catTrace]

theorem derive_store (d : Download) :
    d.derive.store = d.store.trackAll (searchTraces d.contentId d.store) := rfl

theorem derive_contentId (d : Download) : d.derive.contentId = d.contentId := by
  simp only [derive]

theorem derive_catTrace (d : Download) : d.derive.catTrace = d.catTrace := by
  simp only [derive]

theorem derive_transfer (d : Download) : d.derive.transfer = d.transfer := by
  simp only [derive]

theorem derive_error (d : Download) : d.derive.error = d.error := by
  simp only [derive]

theorem derive_frozen (d : Download) : d.derive.frozen = d.frozen := by
  simp only [derive]

theorem derive_providers (d : Download) :
    d.derive.providers =
      providersOf
        ((spansOf d.derive.store (searchTraces d.contentId d.store)).filter (isAnchor d.contentId)) :=
  rfl

theorem derive_indexQuery (d : Download) :
    d.derive.indexQuery = indexQueryOf (spansOf d.derive.store (searchTraces d.contentId d.store)) := rfl

theorem derive_firstBlock (d : Download) :
    d.derive.firstBlock = earliestEvent? Names.handleIncoming Names.receivedBlock d.derive.catSpans := by
  simp only [derive, catSpans]

theorem derive_idleBroadcast (d : Download) :
    d.derive.idleBroadcast = earliestEvent? Names.getBlock Names.idleBroadcast d.derive.catSpans := by
  simp only [derive, catSpans]

theorem derive_done (d : Download) :
    d.derive.done = (d.done || d.derive.catSpans.any (·.name == Names.handler)) := by
  simp only [derive, catSpans]

theorem derive_discovery (d : Download) :
    d.derive.discovery =
      if d.derive.done = true then
        some (classify d.derive.firstBlock d.derive.indexQuery d.derive.store.tracked.spans)
      else d.discovery := by
  simp only [derive]
  rfl

/-- An open download takes a batch in and derives its fields again. -/
theorem ingest_fst (d : Download) (b : Wire.Batch) :
    (d.ingest b).1 = if d.frozen = true then d else derive { d with store := (d.store.ingest b).1 } := by
  unfold ingest
  split <;> rfl

theorem mem_anchors_derive {d : Download} (hs : d.store.WellFormed) (x : Span) :
    x ∈ anchors d.contentId d.derive.store ↔ x ∈ anchors d.contentId d.store := by
  rw [mem_anchors, mem_anchors, derive_store, Store.mem_allSpans_trackAll hs]

/-- Deriving reads the spans of search traces, all of which it has tracked. -/
theorem mem_searchSpans_derive {d : Download} (hs : d.store.WellFormed) (x : Span) :
    x ∈ spansOf d.derive.store (searchTraces d.contentId d.store) ↔
      InSearch d.contentId d.derive.store x := by
  have hstore : d.derive.store.WellFormed := hs.trackAll _
  simp only [mem_spansOf hstore, InSearch, mem_anchors_derive hs, mem_searchTraces]
  constructor
  · rintro ⟨ha, -, hx⟩
    exact ⟨hx, ha⟩
  · rintro ⟨hx, ha⟩
    refine ⟨ha, ?_, hx⟩
    rw [derive_store, Store.isTracked_trackAll]
    exact Or.inl (mem_searchTraces.mpr ha)

theorem mem_catSpans {d : Download} (hs : d.store.WellFormed)
    (htracked : d.store.isTracked d.catTrace = true) {x : Span} :
    x ∈ d.catSpans ↔ x.trace = d.catTrace ∧ x ∈ d.store.allSpans := by
  rw [catSpans, mem_spansOf hs, List.mem_singleton]
  constructor
  · rintro ⟨ht, -, hx⟩
    exact ⟨ht, hx⟩
  · rintro ⟨ht, hx⟩
    exact ⟨ht, ht ▸ htracked, hx⟩

/-- What a download has derived is what its store shows. Between queries to an index that are tied, the
order of the spans decides, which is left open. -/
structure Settled (d : Download) : Prop where
  store : d.store.WellFormed
  tracked : ∀ t, d.store.isTracked t = true ↔ t = d.catTrace ∨ ∃ a ∈ anchors d.contentId d.store, a.trace = t
  providers : d.providers = providersOf (anchors d.contentId d.store)
  indexQuery : ∃ spans : List Span,
    (∀ x, x ∈ spans ↔ InSearch d.contentId d.store x) ∧ d.indexQuery = indexQueryOf spans
  firstBlock : d.firstBlock = earliestEvent? Names.handleIncoming Names.receivedBlock d.catSpans
  idleBroadcast : d.idleBroadcast = earliestEvent? Names.getBlock Names.idleBroadcast d.catSpans
  done : d.done = d.catSpans.any (·.name == Names.handler)
  discovery : d.discovery =
    if d.done then some (classify d.firstBlock d.indexQuery d.store.tracked.spans) else none

/-- What a download has to keep for deriving to settle it: it tracks no trace without reason, and a request
that has been handled stays so. -/
structure Unsettled (d : Download) : Prop where
  store : d.store.WellFormed
  catTracked : d.store.isTracked d.catTrace = true
  tracked : ∀ t, d.store.isTracked t = true → t = d.catTrace ∨ ∃ a ∈ anchors d.contentId d.store, a.trace = t
  done : d.done = true → ∃ x ∈ d.catSpans, x.name = Names.handler
  discovery : d.done = false → d.discovery = none

theorem Settled.catTracked {d : Download} (h : d.Settled) : d.store.isTracked d.catTrace = true :=
  (h.tracked d.catTrace).mpr (Or.inl rfl)

theorem Settled.anchorsTracked {d : Download} (h : d.Settled) : AnchorsTracked d.contentId d.store :=
  fun a ha => (h.tracked a.trace).mpr (Or.inr ⟨a, ha, rfl⟩)

theorem mem_catSpans_derive {d : Download} (h : d.Unsettled) (x : Span) :
    x ∈ d.derive.catSpans ↔ x ∈ d.catSpans := by
  have htracked : d.derive.store.isTracked d.derive.catTrace = true := by
    rw [derive_catTrace, derive_store, Store.isTracked_trackAll]
    exact Or.inr h.catTracked
  have hstore : d.derive.store.WellFormed := h.store.trackAll _
  rw [mem_catSpans h.store h.catTracked, mem_catSpans hstore htracked, derive_catTrace, derive_store,
    Store.mem_allSpans_trackAll h.store]

theorem Unsettled.derive {d : Download} (h : d.Unsettled) : d.derive.Settled := by
  have hstore : d.derive.store.WellFormed := h.store.trackAll _
  have htracked (t : TraceId) : d.derive.store.isTracked t = true ↔
      t = d.catTrace ∨ ∃ a ∈ anchors d.contentId d.derive.store, a.trace = t := by
    simp only [mem_anchors_derive h.store]
    rw [derive_store, Store.isTracked_trackAll, mem_searchTraces]
    constructor
    · rintro (ha | ht)
      · exact Or.inr ha
      · exact h.tracked t ht
    · rintro (rfl | ha)
      · exact Or.inr h.catTracked
      · exact Or.inl ha
  have hproviders : d.derive.providers = providersOf (anchors d.contentId d.derive.store) := by
    rw [derive_providers]
    apply providersOf_congr
    intro x
    rw [List.mem_filter, mem_searchSpans_derive h.store]
    constructor
    · rintro ⟨⟨hx, -⟩, hanchor⟩
      exact mem_anchors.mpr ⟨hx, hanchor⟩
    · intro ha
      obtain ⟨hx, hanchor⟩ := mem_anchors.mp ha
      exact ⟨⟨hx, x, ha, rfl⟩, hanchor⟩
  have hdone : d.derive.done = d.derive.catSpans.any (·.name == Names.handler) := by
    rw [derive_done]
    cases hd : d.done with
    | false => rfl
    | true =>
        obtain ⟨x, hx, hname⟩ := h.done hd
        have hany : d.derive.catSpans.any (·.name == Names.handler) = true :=
          List.any_eq_true.mpr ⟨x, (mem_catSpans_derive h x).mpr hx, beq_iff_eq.mpr hname⟩
        rw [hany, Bool.true_or]
  have hdiscovery : d.derive.discovery = if d.derive.done = true then
      some (classify d.derive.firstBlock d.derive.indexQuery d.derive.store.tracked.spans) else none := by
    rw [derive_discovery]
    split
    · rfl
    · rename_i hd
      rw [derive_done, Bool.not_eq_true, Bool.or_eq_false_iff] at hd
      exact h.discovery hd.1
  refine ⟨hstore, ?_, ?_, ⟨_, ?_, derive_indexQuery d⟩, derive_firstBlock d, derive_idleBroadcast d, hdone,
    hdiscovery⟩
  · rw [derive_contentId, derive_catTrace]
    exact htracked
  · rw [derive_contentId]
    exact hproviders
  · rw [derive_contentId]
    exact mem_searchSpans_derive h.store

/-! Every operation keeps a download settled -/

theorem Settled.ofContent (contentId : String) (catTrace : TraceId) (start : Nat) :
    (Download.ofContent contentId catTrace start).Settled := by
  have hspans (x : Span) : x ∉ (Download.ofContent contentId catTrace start).store.allSpans := by
    change x ∉ (Store.tracking [catTrace]).allSpans
    rw [Store.allSpans_tracking]
    exact List.not_mem_nil
  have hanchors : anchors contentId (Download.ofContent contentId catTrace start).store = [] :=
    List.eq_nil_iff_forall_not_mem.mpr fun x hx => hspans x (mem_anchors.mp hx).1
  have hcat : (Download.ofContent contentId catTrace start).catSpans = [] := by
    refine List.eq_nil_iff_forall_not_mem.mpr fun x hx => hspans x ?_
    exact ((mem_spansOf (.tracking [catTrace])).mp hx).2.2
  refine ⟨.tracking _, fun t => ?_, ?_, ⟨[], fun x => ?_, rfl⟩, ?_, ?_, ?_, rfl⟩
  · change (Store.tracking [catTrace]).isTracked t = true ↔ t = catTrace ∨ ∃ a ∈ anchors contentId _, _
    simp [Store.isTracked_tracking, hanchors]
  · change _ = providersOf (anchors contentId _)
    rw [hanchors]
    rfl
  · simp [InSearch, hspans]
  all_goals
    rw [hcat]
    rfl

theorem Settled.ingest {d : Download} (h : d.Settled) (b : Wire.Batch) : (d.ingest b).1.Settled := by
  rw [ingest_fst]
  split
  · exact h
  · have htracked := Store.isTracked_ingest d.store b
    have hanchors {a : Span} (ha : a ∈ anchors d.contentId d.store) :
        a ∈ anchors d.contentId (d.store.ingest b).1 := by
      obtain ⟨hx, hanchor⟩ := mem_anchors.mp ha
      exact mem_anchors.mpr ⟨Store.mem_allSpans_ingest h.store b hx, hanchor⟩
    have hcat : (d.store.ingest b).1.isTracked d.catTrace = true := (htracked _).mpr h.catTracked
    refine Unsettled.derive ⟨h.store.ingest b, hcat, ?_, ?_, ?_⟩
    · intro t ht
      rcases (h.tracked t).mp ((htracked t).mp ht) with hroot | ⟨a, ha, hat⟩
      · exact Or.inl hroot
      · exact Or.inr ⟨a, hanchors ha, hat⟩
    · intro hdone
      change d.done = true at hdone
      rw [h.done] at hdone
      obtain ⟨x, hx, hname⟩ := List.any_eq_true.mp hdone
      obtain ⟨ht, hmem⟩ := (mem_catSpans h.store h.catTracked).mp hx
      refine ⟨x, (mem_catSpans (h.store.ingest b) hcat).mpr ⟨ht, ?_⟩, beq_iff_eq.mp hname⟩
      exact Store.mem_allSpans_ingest h.store b hmem
    · intro hdone
      change d.done = false at hdone
      rw [h.discovery, hdone]
      rfl

theorem Settled.finish {d : Download} (h : d.Settled) (t : Transfer) : (d.finish t).Settled :=
  ⟨h.store, h.tracked, h.providers, h.indexQuery, h.firstBlock, h.idleBroadcast, h.done, h.discovery⟩

theorem Settled.fail {d : Download} (h : d.Settled) (error : String) : (d.fail error).Settled :=
  ⟨h.store, h.tracked, h.providers, h.indexQuery, h.firstBlock, h.idleBroadcast, h.done, h.discovery⟩

/-- Freezing discards no anchor and no span of a search trace, since those traces are tracked. -/
theorem Settled.freeze {d : Download} (h : d.Settled) : d.freeze.Settled := by
  have hanchors : anchors d.contentId d.store.discardPending = anchors d.contentId d.store :=
    Store.filter_allSpans_discardPending h.store fun a ha hanchor =>
      h.anchorsTracked a (mem_anchors.mpr ⟨ha, hanchor⟩)
  refine ⟨h.store.discardPending, fun t => ?_, ?_, ?_, h.firstBlock, h.idleBroadcast, h.done, h.discovery⟩
  · change d.store.isTracked t = true ↔ t = d.catTrace ∨ ∃ a ∈ anchors d.contentId d.store.discardPending, _
    rw [hanchors]
    exact h.tracked t
  · change d.providers = providersOf (anchors d.contentId d.store.discardPending)
    rw [hanchors]
    exact h.providers
  · obtain ⟨spans, hspans, hquery⟩ := h.indexQuery
    refine ⟨spans, fun x => ?_, hquery⟩
    change x ∈ spans ↔ InSearch d.contentId d.store.discardPending x
    rw [hspans, InSearch, InSearch, hanchors, Store.mem_allSpans_discardPending h.store]
    constructor
    · rintro ⟨hx, a, ha, hat⟩
      exact ⟨⟨hat ▸ h.anchorsTracked a ha, hx⟩, a, ha, hat⟩
    · rintro ⟨⟨-, hx⟩, ha⟩
      exact ⟨hx, ha⟩

theorem Settled.step {d : Download} (h : d.Settled) (op : Op) : (d.step op).Settled := by
  cases op with
  | ingest b => exact h.ingest b
  | finish t => exact h.finish t
  | fail error => exact h.fail error
  | freeze => exact h.freeze

theorem Settled.run {d : Download} (h : d.Settled) (ops : List Op) : (d.run ops).Settled := by
  induction ops generalizing d with
  | nil => exact h
  | cons op ops ih => exact ih (h.step op)

/-! What a run leaves behind -/

theorem frozen_step {d : Download} {op : Op} (hop : op ≠ .freeze) : (d.step op).frozen = d.frozen := by
  cases op with
  | ingest b =>
      change (d.ingest b).1.frozen = d.frozen
      rw [ingest_fst]
      split
      · rfl
      · exact derive_frozen _
  | finish t => rfl
  | fail error => rfl
  | freeze => exact absurd rfl hop

/-- No operation changes what was asked for. -/
theorem request_step (d : Download) (op : Op) :
    (d.step op).contentId = d.contentId ∧ (d.step op).catTrace = d.catTrace := by
  cases op with
  | ingest b =>
      change (d.ingest b).1.contentId = d.contentId ∧ (d.ingest b).1.catTrace = d.catTrace
      rw [ingest_fst]
      split
      · exact ⟨rfl, rfl⟩
      · exact ⟨derive_contentId _, derive_catTrace _⟩
  | finish t => exact ⟨rfl, rfl⟩
  | fail error => exact ⟨rfl, rfl⟩
  | freeze => exact ⟨rfl, rfl⟩

theorem request_run (d : Download) (ops : List Op) :
    (d.run ops).contentId = d.contentId ∧ (d.run ops).catTrace = d.catTrace := by
  induction ops generalizing d with
  | nil => exact ⟨rfl, rfl⟩
  | cons op ops ih =>
      obtain ⟨hid, htrace⟩ := ih (d.step op)
      obtain ⟨hid', htrace'⟩ := request_step d op
      exact ⟨hid.trans hid', htrace.trans htrace'⟩

theorem transfer_step (d : Download) (op : Op) : (d.step op).transfer = op.transfer?.or d.transfer := by
  cases op with
  | ingest b =>
      change (d.ingest b).1.transfer = d.transfer
      rw [ingest_fst]
      split
      · rfl
      · exact derive_transfer _
  | finish t => rfl
  | fail error => rfl
  | freeze => rfl

/-- The last transfer that was told of counts. -/
theorem transfer_run (d : Download) (ops : List Op) :
    (d.run ops).transfer = (transfers ops).getLast?.or d.transfer := by
  induction ops generalizing d with
  | nil => rfl
  | cons op ops ih =>
      change ((d.step op).run ops).transfer = _
      rw [ih, transfer_step, transfers, transfers, List.filterMap_cons]
      cases op.transfer? with
      | none => rfl
      | some t =>
          rw [List.getLast?_cons]
          cases (ops.filterMap Op.transfer?).getLast? <;> rfl

theorem error_step (d : Download) (op : Op) :
    (d.step op).error = op.failure?.elim d.error (joinError d.error) := by
  cases op with
  | ingest b =>
      change (d.ingest b).1.error = d.error
      rw [ingest_fst]
      split
      · rfl
      · exact derive_error _
  | finish t => rfl
  | fail error => rfl
  | freeze => rfl

/-- Failures are joined in the order in which they were told of. -/
theorem error_run (d : Download) (ops : List Op) :
    (d.run ops).error = (failures ops).foldl joinError d.error := by
  induction ops generalizing d with
  | nil => rfl
  | cons op ops ih =>
      change ((d.step op).run ops).error = _
      rw [ih, error_step, failures, failures, List.filterMap_cons]
      cases op.failure? <;> rfl

/-- What an operation adds it has brought. -/
theorem mem_of_mem_step {d : Download} (hs : d.store.WellFormed) {op : Op} {x : Span}
    (hx : x ∈ (d.step op).store.allSpans) : x ∈ d.store.allSpans ∨ x ∈ op.spans := by
  cases op with
  | ingest b =>
      change x ∈ (d.ingest b).1.store.allSpans at hx
      rw [ingest_fst] at hx
      split at hx
      · exact Or.inl hx
      · rw [derive_store, Store.mem_allSpans_trackAll (hs.ingest b)] at hx
        exact Store.mem_of_mem_allSpans_ingest hs hx
  | finish t => exact Or.inl hx
  | fail error => exact Or.inl hx
  | freeze => exact Or.inl ((Store.mem_allSpans_discardPending hs x).mp hx).2

theorem holds_step {d : Download} (hopen : d.frozen = false) {spans : List Span}
    (h : d.store.Holds spans) {op : Op} (hop : op ≠ .freeze) :
    (d.step op).store.Holds (spans ++ op.spans) := by
  cases op with
  | ingest b =>
      change (d.ingest b).1.store.Holds (spans ++ Span.ofBatch b)
      simp only [ingest_fst, hopen, Bool.false_eq_true, if_false, derive_store]
      exact (h.ingest b).trackAll _
  | finish t => simpa [step, Download.finish, Op.spans] using h
  | fail error => simpa [step, Download.fail, Op.spans] using h
  | freeze => exact absurd rfl hop

/-- Until it is frozen, a download holds the first span of every place that was delivered to it. -/
theorem holds_run {d : Download} (hopen : d.frozen = false) {spans : List Span} (h : d.store.Holds spans)
    {ops : List Op} (hops : .freeze ∉ ops) : (d.run ops).store.Holds (spans ++ delivered ops) := by
  induction ops generalizing d spans with
  | nil => simpa [run, delivered] using h
  | cons op ops ih =>
      obtain ⟨hop, hrest⟩ := List.ne_and_not_mem_of_not_mem_cons hops
      have htail := ih ((frozen_step hop.symm).trans hopen) (holds_step hopen h hop.symm) hrest
      simpa [run, delivered, List.append_assoc] using htail

theorem holds_run_new (contentId : String) (catTrace : TraceId) (start : Nat) {ops : List Op}
    (hops : .freeze ∉ ops) :
    ((Download.ofContent contentId catTrace start).run ops).store.Holds (delivered ops) := by
  have hnew : (Download.ofContent contentId catTrace start).store.Holds [] :=
    Store.Holds.tracking [catTrace]
  simpa only [List.nil_append] using holds_run rfl hnew hops

end ContentProbe.Download
