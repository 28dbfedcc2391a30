import ContentProbe.Proofs.Download.Runs

/-!
The way of discovery, said of the stored spans alone. A download compares the least start of a kind of query
with the least time of a block, and keeps the three least times apart. What it comes to is that some query
of the kind began before every block of the request: a query to the routing table in any tracked trace, or
else a query to an index in a search trace. It does so after any operations, however late an anchor came and
however early the request was handled.
-/

namespace ContentProbe.Download

/-- The request received a block at an instant. -/
def BlockAt (catTrace : TraceId) (spans : List Span) (instant : Nat) : Prop :=
  ∃ x ∈ spans, x.trace = catTrace ∧ x.name = Names.handleIncoming ∧
    ∃ e ∈ x.events, e.name = Names.receivedBlock ∧ e.time = instant

/-- Strictly before every block of the request, of which there may be none. -/
def BeforeBlocks (catTrace : TraceId) (spans : List Span) (instant : Nat) : Prop :=
  ∀ block, BlockAt catTrace spans block → instant < block

/-- The trace holds a search for providers of the content id. -/
def Searches (contentId : String) (spans : List Span) (t : TraceId) : Prop :=
  ∃ a ∈ spans, isAnchor contentId a = true ∧ a.trace = t

/-- A query to the routing table, by the request or by a search, began before every block. -/
def RoutedEarly (contentId : String) (catTrace : TraceId) (spans : List Span) : Prop :=
  ∃ q ∈ spans, q.name = Names.routingQuery ∧
    (q.trace = catTrace ∨ Searches contentId spans q.trace) ∧ BeforeBlocks catTrace spans q.start

/-- A query to an index by a search began before every block. -/
def IndexedEarly (contentId : String) (catTrace : TraceId) (spans : List Span) : Prop :=
  ∃ q ∈ spans, q.name = Names.indexQuery ∧ Searches contentId spans q.trace ∧
    BeforeBlocks catTrace spans q.start

/-- The request was handled. -/
def Handled (catTrace : TraceId) (spans : List Span) : Prop :=
  ∃ x ∈ spans, x.trace = catTrace ∧ x.name = Names.handler

/-! What the least times come to -/

/-- Early is what lies before all of some blocks, also if there are none. -/
theorem isEarly_min?_iff {blocks : List Nat} {instant : Nat} :
    isEarly blocks.min? instant = true ↔ ∀ block ∈ blocks, instant < block := by
  cases hmin : blocks.min? with
  | none => simp [isEarly, List.min?_eq_none_iff.mp hmin]
  | some least =>
      obtain ⟨hmem, hle⟩ := List.min?_eq_some_iff.mp hmin
      simp only [isEarly, decide_eq_true_eq]
      exact ⟨fun h block hblock => h.trans_le (hle block hblock), fun h => h least hmem⟩

theorem isEarly_earliestEvent?_iff {span event : String} {spans : List Span} {instant : Nat} :
    isEarly (earliestEvent? span event spans) instant = true ↔
      ∀ x ∈ spans, x.name = span → ∀ e ∈ x.events, e.name = event → instant < e.time := by
  rw [earliestEvent?, isEarly_min?_iff]
  simp only [List.mem_map, List.mem_flatMap, List.mem_filter, beq_iff_eq, Span.eventsNamed]
  constructor
  · intro h x hx hname e he hevent
    exact h e.time ⟨e, ⟨x, ⟨hx, hname⟩, he, hevent⟩, rfl⟩
  · rintro h block ⟨e, ⟨x, ⟨hx, hname⟩, he, hevent⟩, rfl⟩
    exact h x hx hname e he hevent

/-- The query to an index that is shown is early exactly if one of the queries is. -/
theorem any_isEarly_indexQueryOf {firstBlock : Option Nat} {spans : List Span} :
    ((indexQueryOf spans).map (·.start)).any (isEarly firstBlock) = true ↔
      ∃ q ∈ spans, q.name = Names.indexQuery ∧ isEarly firstBlock q.start = true := by
  rw [indexQueryOf, Option.map_map]
  cases hfirst : firstBy? queryBefore (spans.filter (·.name == Names.indexQuery)) with
  | none =>
      have hnone := (firstBy?_eq_none_iff _ _).mp hfirst
      simp only [List.filter_eq_nil_iff, beq_iff_eq] at hnone
      simp only [Option.map_none, Option.any_none, Bool.false_eq_true, false_iff]
      rintro ⟨q, hq, hname, -⟩
      exact hnone q hq hname
  | some first =>
      obtain ⟨hmem, hle⟩ := isFirst_of_firstBy? queryBefore_ordersBy hfirst
      obtain ⟨hspan, hname⟩ := List.mem_filter.mp hmem
      rw [Option.map_some, Option.any_some]
      constructor
      · exact fun hearly => ⟨first, hspan, beq_iff_eq.mp hname, hearly⟩
      · rintro ⟨q, hq, hqname, hearly⟩
        refine isEarly_of_le ?_ hearly
        rcases Prod.Lex.toLex_le_toLex.mp
          (hle q (List.mem_filter.mpr ⟨hq, beq_iff_eq.mpr hqname⟩)) with hlt | ⟨heq, -⟩
        · exact hlt.le
        · exact heq.le

/-! A settled download -/

section Settled

variable {d : Download} (h : d.Settled)

include h

theorem Settled.isEarly_iff {instant : Nat} :
    isEarly d.firstBlock instant = true ↔ BeforeBlocks d.catTrace d.store.allSpans instant := by
  rw [h.firstBlock, isEarly_earliestEvent?_iff]
  simp only [mem_catSpans h.store h.catTracked]
  constructor
  · rintro hall block ⟨x, hx, ht, hname, e, he, hevent, rfl⟩
    exact hall x ⟨ht, hx⟩ hname e he hevent
  · rintro hall x ⟨ht, hx⟩ hname e he hevent
    exact hall e.time ⟨x, hx, ht, hname, e, he, hevent, rfl⟩

theorem Settled.isTracked_iff {t : TraceId} :
    d.store.isTracked t = true ↔ t = d.catTrace ∨ Searches d.contentId d.store.allSpans t := by
  rw [h.tracked]
  simp only [Searches, mem_anchors, and_assoc]

theorem Settled.done_iff : d.done = true ↔ Handled d.catTrace d.store.allSpans := by
  rw [h.done, List.any_eq_true]
  simp only [mem_catSpans h.store h.catTracked, beq_iff_eq, Handled]
  constructor
  · rintro ⟨x, ⟨ht, hx⟩, hname⟩
    exact ⟨x, hx, ht, hname⟩
  · rintro ⟨x, hx, ht, hname⟩
    exact ⟨x, ⟨ht, hx⟩, hname⟩

theorem Settled.any_isEarlyRouting_iff :
    d.store.tracked.spans.any (isEarlyRouting d.firstBlock) = true ↔
      RoutedEarly d.contentId d.catTrace d.store.allSpans := by
  rw [List.any_eq_true]
  simp only [Store.mem_tracked_iff h.store, h.isTracked_iff, isEarlyRouting, Bool.and_eq_true, beq_iff_eq,
    h.isEarly_iff, RoutedEarly]
  constructor
  · rintro ⟨q, ⟨ht, hq⟩, hname, hearly⟩
    exact ⟨q, hq, hname, ht, hearly⟩
  · rintro ⟨q, hq, hname, ht, hearly⟩
    exact ⟨q, ⟨ht, hq⟩, hname, hearly⟩

theorem Settled.any_isEarly_indexQuery_iff :
    (d.indexQuery.map (·.start)).any (isEarly d.firstBlock) = true ↔
      IndexedEarly d.contentId d.catTrace d.store.allSpans := by
  obtain ⟨spans, hspans, hquery⟩ := h.indexQuery
  rw [hquery, any_isEarly_indexQueryOf]
  simp only [hspans, InSearch, mem_anchors, h.isEarly_iff, IndexedEarly, Searches]
  constructor
  · rintro ⟨q, ⟨hq, a, ⟨ha, hanchor⟩, hat⟩, hname, hearly⟩
    exact ⟨q, hq, hname, ⟨a, ha, hanchor, hat⟩, hearly⟩
  · rintro ⟨q, hq, hname, ⟨a, ha, hanchor, hat⟩, hearly⟩
    exact ⟨q, ⟨hq, a, ⟨ha, hanchor⟩, hat⟩, hname, hearly⟩

/-- A way of discovery is told once the request was handled: the first one of the three that applies. -/
theorem Settled.discovery_iff :
    (d.discovery.isSome = true ↔ d.done = true) ∧
      (d.discovery = some .routing ↔
        d.done = true ∧ RoutedEarly d.contentId d.catTrace d.store.allSpans) ∧
      (d.discovery = some .index ↔
        d.done = true ∧ ¬ RoutedEarly d.contentId d.catTrace d.store.allSpans ∧
          IndexedEarly d.contentId d.catTrace d.store.allSpans) ∧
      (d.discovery = some .broadcast ↔
        d.done = true ∧ ¬ RoutedEarly d.contentId d.catTrace d.store.allSpans ∧
          ¬ IndexedEarly d.contentId d.catTrace d.store.allSpans) := by
  rw [h.discovery, classify_eq, ← h.any_isEarlyRouting_iff, ← h.any_isEarly_indexQuery_iff]
  cases d.done with
  | false => simp
  | true =>
      cases d.store.tracked.spans.any (isEarlyRouting d.firstBlock) with
      | true => simp
      | false => cases (d.indexQuery.map (·.start)).any (isEarly d.firstBlock) <;> simp

end Settled

/-- After any operations a download tells a way of discovery exactly if the request was handled, and it is the
one that the stored spans show: the routing table if a query to it began before every block, otherwise an
index if a query to one did, otherwise the broadcast. Until it is frozen, the stored spans are the first ones
delivered to each place. -/
theorem discovery_classified (contentId : String) (catTrace : TraceId) (start : Nat) (ops : List Op) :
    let d := (Download.ofContent contentId catTrace start).run ops
    let spans := d.store.allSpans
    (.freeze ∉ ops → ∀ x, x ∈ spans ↔ x ∈ leading (delivered ops)) ∧
      (d.discovery.isSome = true ↔ d.done = true) ∧ (d.done = true ↔ Handled catTrace spans) ∧
      (d.discovery = some .routing ↔ d.done = true ∧ RoutedEarly contentId catTrace spans) ∧
      (d.discovery = some .index ↔
        d.done = true ∧ ¬ RoutedEarly contentId catTrace spans ∧ IndexedEarly contentId catTrace spans) ∧
      (d.discovery = some .broadcast ↔
        d.done = true ∧ ¬ RoutedEarly contentId catTrace spans ∧ ¬ IndexedEarly contentId catTrace spans) := by
  intro d spans
  have hsettled : d.Settled := (Settled.ofContent contentId catTrace start).run ops
  obtain ⟨hid, hcat⟩ : d.contentId = contentId ∧ d.catTrace = catTrace :=
    request_run (Download.ofContent contentId catTrace start) ops
  have hdone : d.done = true ↔ Handled catTrace spans := hcat ▸ hsettled.done_iff
  obtain ⟨htold, hdiscovery⟩ := hsettled.discovery_iff
  rw [hid, hcat] at hdiscovery
  exact ⟨fun hops x => (holds_run_new contentId catTrace start hops).mem_iff, htold, hdone, hdiscovery⟩

/-- A request that is handled before its search becomes known. The query to the routing table starts at the very
instant at which the block comes, a report of the same query that starts sooner comes too late, and the query
to an index waits for its anchor. -/
def handledFirst : List Op :=
  let block (time : UInt64) : Wire.Event := ⟨Names.receivedBlock, time, [], 0⟩
  [.ingest (.ofSpans [.ofNumbers 7 1 Names.handler 10 90 [] [],
      .ofNumbers 7 2 Names.handleIncoming 50 70 [] [block 60, block 55],
      .ofNumbers 9 2 Names.indexQuery 30 40 [] []]),
    .ingest (.ofSpans [.ofNumbers 9 3 Names.routingQuery 55 80 [] []]), .finish ⟨some 5, 60, 100⟩,
    .ingest (.ofSpans [.ofNumbers 9 3 Names.routingQuery 20 80 [] [],
      .ofNumbers 9 1 Names.findProviders 20 80 [⟨Names.findProvidersCid, some (.string "cid")⟩] []])]

theorem handledFirst_classified :
    let d := (Download.ofContent "cid" (.ofNat 7) 0).run handledFirst
    .freeze ∉ handledFirst ∧ (∀ x, x ∈ d.store.allSpans ↔ x ∈ leading (delivered handledFirst)) ∧
      d.discovery = some .index ∧ ¬ RoutedEarly "cid" (.ofNat 7) d.store.allSpans ∧
      IndexedEarly "cid" (.ofNat 7) d.store.allSpans := by
  intro d
  have hops : .freeze ∉ handledFirst := by simp [handledFirst]
  have hindex : d.discovery = some .index := by decide
  obtain ⟨hstored, -, -, -, hindexed, -⟩ := discovery_classified "cid" (.ofNat 7) 0 handledFirst
  obtain ⟨-, hrouted, hearly⟩ := hindexed.mp hindex
  exact ⟨hops, hstored hops, hindex, hrouted, hearly⟩

end ContentProbe.Download
