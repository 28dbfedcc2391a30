import ContentProbe.Proofs.Download.Runs

/-!
Downloads converge: what a download shows in the end depends on the set of well-formed spans that it was
delivered, not on their order, on repetitions, on how they were batched or on when the transfer ended. The
one exception are queries to an index that begin together under one span id in different search traces;
nothing says which of them is the earliest.
-/

namespace ContentProbe.Download

/-- The queries to an index in traces that hold an anchor. -/
def searchQueries (contentId : String) (spans : List Span) : List Span :=
  spans.filter fun q =>
    q.name == Names.indexQuery && spans.any fun a => isAnchor contentId a && decide (a.trace = q.trace)

/-- No two earliest queries have one span id in different traces. -/
def Untied (contentId : String) (spans : List Span) : Prop :=
  ∀ q ∈ searchQueries contentId spans, ∀ q' ∈ searchQueries contentId spans,
    (∀ x ∈ searchQueries contentId spans, q.start ≤ x.start) → q'.start = q.start → q'.id = q.id →
      q'.trace = q.trace

instance (contentId : String) (spans : List Span) : Decidable (Untied contentId spans) :=
  inferInstanceAs (Decidable (∀ q ∈ searchQueries contentId spans, ∀ q' ∈ searchQueries contentId spans,
    (∀ x ∈ searchQueries contentId spans, q.start ≤ x.start) → q'.start = q.start → q'.id = q.id →
      q'.trace = q.trace))

theorem mem_searchQueries {contentId : String} {spans : List Span} {q : Span} :
    q ∈ searchQueries contentId spans ↔
      q ∈ spans ∧ q.name = Names.indexQuery ∧
        ∃ a ∈ spans, isAnchor contentId a = true ∧ a.trace = q.trace := by
  simp [searchQueries]

theorem Untied.congr {contentId : String} {xs ys : List Span} (hmem : ∀ x, x ∈ xs ↔ x ∈ ys)
    (h : Untied contentId xs) : Untied contentId ys := by
  have hqueries (q : Span) : q ∈ searchQueries contentId ys ↔ q ∈ searchQueries contentId xs := by
    simp only [mem_searchQueries, hmem]
  intro q hq q' hq' hfirst
  refine h q ((hqueries q).mp hq) q' ((hqueries q').mp hq') ?_
  exact fun x hx => hfirst x ((hqueries x).mpr hx)

theorem InSearch.mem_searchQueries_iff {contentId : String} {store : Store} {q : Span} :
    q ∈ searchQueries contentId store.allSpans ↔
      InSearch contentId store q ∧ q.name = Names.indexQuery := by
  simp only [mem_searchQueries, InSearch, mem_anchors]
  constructor
  · rintro ⟨hq, hname, a, ha, hanchor, hat⟩
    exact ⟨⟨hq, a, ⟨ha, hanchor⟩, hat⟩, hname⟩
  · rintro ⟨⟨hq, a, ⟨ha, hanchor⟩, hat⟩, hname⟩
    exact ⟨hq, hname, a, ha, hanchor, hat⟩

/-- However the stored spans of the search traces are ordered, the same query is shown. -/
theorem indexQueryOf_congr_of_untied {contentId : String} {store : Store} (hs : store.WellFormed)
    (huntied : Untied contentId store.allSpans) {xs ys : List Span}
    (hxs : ∀ x, x ∈ xs ↔ InSearch contentId store x)
    (hmem : ∀ x, x.name = Names.indexQuery → (x ∈ xs ↔ x ∈ ys)) :
    indexQueryOf xs = indexQueryOf ys := by
  apply indexQueryOf_congr hmem
  intro q q' hfirst hq' hname' hstart hid
  have hqueries (x : Span) : x ∈ xs.filter (·.name == Names.indexQuery) ↔
      x ∈ searchQueries contentId store.allSpans := by
    rw [List.mem_filter, hxs, beq_iff_eq, InSearch.mem_searchQueries_iff]
  have hq := (hqueries q).mp hfirst.1
  have hsearch' := (hxs q').mp hq'
  have hid' : q'.id = q.id := SpanId.eq_of_toNat_eq hid
  have htrace : q'.trace = q.trace :=
    huntied q hq q' (InSearch.mem_searchQueries_iff.mpr ⟨hsearch', hname'⟩)
      (fun x hx => hfirst.2 x ((hqueries x).mpr hx)) hstart hid'
  exact Store.coherent_allSpans hs q' hsearch'.1 q (mem_searchQueries.mp hq).1 htrace hid'

section Agree

variable {d e : Download} (hd : d.Settled) (he : e.Settled)
  (hrequest : d.contentId = e.contentId ∧ d.catTrace = e.catTrace)
  (hspans : ∀ x, x ∈ d.store.allSpans ↔ x ∈ e.store.allSpans)

include hd he hrequest hspans

/-- Settled downloads of one request that hold the same spans show the same, as far as a tie between queries
to an index leaves it open. -/
theorem Settled.agree_but_for_ties :
    d.providers = e.providers ∧ d.idleBroadcast = e.idleBroadcast ∧
      d.indexQuery.map (·.start) = e.indexQuery.map (·.start) ∧ d.firstBlock = e.firstBlock ∧
      d.discovery = e.discovery ∧ d.done = e.done ∧ d.store.spansByTrace = e.store.spansByTrace := by
  obtain ⟨hid, hcat⟩ := hrequest
  have hanchors (x : Span) : x ∈ anchors d.contentId d.store ↔ x ∈ anchors e.contentId e.store := by
    rw [mem_anchors, mem_anchors, hspans, hid]
  have htracked (t : TraceId) : d.store.isTracked t = true ↔ e.store.isTracked t = true := by
    simp only [hd.tracked, he.tracked, hcat, hanchors]
  have hcatSpans (x : Span) : x ∈ d.catSpans ↔ x ∈ e.catSpans := by
    rw [mem_catSpans hd.store hd.catTracked, mem_catSpans he.store he.catTracked, hcat, hspans]
  have hproviders : d.providers = e.providers := by
    rw [hd.providers, he.providers, providersOf_congr hanchors]
  have hidle : d.idleBroadcast = e.idleBroadcast := by
    rw [hd.idleBroadcast, he.idleBroadcast, earliestEvent?_congr fun x _ => hcatSpans x]
  have hblock : d.firstBlock = e.firstBlock := by
    rw [hd.firstBlock, he.firstBlock, earliestEvent?_congr fun x _ => hcatSpans x]
  have hstart : d.indexQuery.map (·.start) = e.indexQuery.map (·.start) := by
    obtain ⟨xs, hxs, hx⟩ := hd.indexQuery
    obtain ⟨ys, hys, hy⟩ := he.indexQuery
    rw [hx, hy]
    apply indexQueryOf_start_congr
    intro x _
    rw [hxs, hys, InSearch, InSearch, hspans]
    simp only [hanchors]
  have hdone : d.done = e.done := by
    rw [hd.done, he.done, Bool.eq_iff_iff]
    simp only [List.any_eq_true, hcatSpans]
  have hdiscovery : d.discovery = e.discovery := by
    have hclass : classify d.firstBlock d.indexQuery d.store.tracked.spans =
        classify e.firstBlock e.indexQuery e.store.tracked.spans := by
      rw [hblock, classify_start_congr _ hstart]
      apply classify_congr
      intro x _
      rw [Store.mem_tracked_iff hd.store, Store.mem_tracked_iff he.store, htracked, hspans]
    rw [hd.discovery, he.discovery, hdone, hclass]
  exact ⟨hproviders, hidle, hstart, hblock, hdiscovery, hdone,
    Store.spansByTrace_congr hd.store he.store htracked hspans⟩

theorem Settled.agree (huntied : Untied d.contentId d.store.allSpans) :
    d.providers = e.providers ∧ d.idleBroadcast = e.idleBroadcast ∧ d.indexQuery = e.indexQuery ∧
      d.firstBlock = e.firstBlock ∧ d.discovery = e.discovery ∧ d.done = e.done ∧
      d.store.spansByTrace = e.store.spansByTrace := by
  obtain ⟨hproviders, hidle, -, hrest⟩ := hd.agree_but_for_ties he hrequest hspans
  have hquery : d.indexQuery = e.indexQuery := by
    obtain ⟨xs, hxs, hx⟩ := hd.indexQuery
    obtain ⟨ys, hys, hy⟩ := he.indexQuery
    rw [hx, hy]
    apply indexQueryOf_congr_of_untied hd.store huntied hxs
    intro x _
    rw [hxs, hys, InSearch, InSearch, hspans]
    simp only [mem_anchors, hspans, hrequest.1]
  exact ⟨hproviders, hidle, hquery, hrest⟩

end Agree

/-- Batches are taken in, and the end of the transfer, if it is told of, at one point among them. -/
def FinishesOnce (transfer : Option Transfer) (ops : List Op) : Prop :=
  ∃ before after : List Wire.Batch,
    ops = before.map .ingest ++ (transfer.map Op.finish).toList ++ after.map .ingest

theorem transfers_map_ingest (batches : List Wire.Batch) : transfers (batches.map .ingest) = [] := by
  simp [transfers, Op.transfer?]

theorem FinishesOnce.transfers_eq {transfer : Option Transfer} {ops : List Op}
    (h : FinishesOnce transfer ops) : transfers ops = transfer.toList := by
  obtain ⟨before, after, rfl⟩ := h
  have hmiddle : transfers (transfer.map Op.finish).toList = transfer.toList := by
    cases transfer <;> rfl
  rw [transfers, List.filterMap_append, List.filterMap_append, ← transfers, ← transfers, ← transfers,
    hmiddle, transfers_map_ingest, transfers_map_ingest, List.nil_append, List.append_nil]

theorem FinishesOnce.freeze_not_mem {transfer : Option Transfer} {ops : List Op}
    (h : FinishesOnce transfer ops) : .freeze ∉ ops := by
  obtain ⟨before, after, rfl⟩ := h
  cases transfer <;> simp

/-- Two runs of a new download that are told of the same transfer, or of none, and are delivered the same
well-formed spans, no two of which disagree about a place and no two of which are tied as the earliest query
to an index, show the same of the request and its discovery and are complete together. -/
theorem downloads_converge (contentId : String) (catTrace : TraceId) (start : Nat)
    (transfer : Option Transfer) (ops₁ ops₂ : List Op)
    (hops₁ : FinishesOnce transfer ops₁) (hops₂ : FinishesOnce transfer ops₂)
    (hsame : ∀ s, s ∈ delivered ops₁ ↔ s ∈ delivered ops₂) (hcoherent : Coherent (delivered ops₁))
    (huntied : Untied contentId (delivered ops₁)) :
    let d₁ := (Download.ofContent contentId catTrace start).run ops₁
    let d₂ := (Download.ofContent contentId catTrace start).run ops₂
    d₁.providers = d₂.providers ∧ d₁.idleBroadcast = d₂.idleBroadcast ∧ d₁.indexQuery = d₂.indexQuery ∧
      d₁.firstBlock = d₂.firstBlock ∧ d₁.discovery = d₂.discovery ∧ d₁.done = d₂.done ∧
      d₁.isComplete = d₂.isComplete ∧ d₁.store.spansByTrace = d₂.store.spansByTrace := by
  intro d₁ d₂
  have hsettled (ops : List Op) : ((Download.ofContent contentId catTrace start).run ops).Settled :=
    (Settled.ofContent contentId catTrace start).run ops
  have htransfer {ops : List Op} (hops : FinishesOnce transfer ops) :
      ((Download.ofContent contentId catTrace start).run ops).transfer = transfer := by
    rw [transfer_run, hops.transfers_eq]
    cases transfer <;> rfl
  have hholds {ops : List Op} (hops : FinishesOnce transfer ops) :
      ((Download.ofContent contentId catTrace start).run ops).store.Holds (delivered ops) :=
    holds_run_new contentId catTrace start hops.freeze_not_mem
  have hdelivered (x : Span) : x ∈ delivered ops₁ ↔ x ∈ d₁.store.allSpans :=
    ((hholds hops₁).mem_iff_of_coherent hcoherent).symm
  have hspans (x : Span) : x ∈ d₁.store.allSpans ↔ x ∈ d₂.store.allSpans := by
    rw [← hdelivered, (hholds hops₂).mem_iff_of_coherent (hcoherent.congr hsame), hsame]
  obtain ⟨hid₁, hcat₁⟩ := request_run (Download.ofContent contentId catTrace start) ops₁
  obtain ⟨hid₂, hcat₂⟩ := request_run (Download.ofContent contentId catTrace start) ops₂
  have huntied₁ : Untied d₁.contentId d₁.store.allSpans := by
    rw [hid₁]
    exact huntied.congr hdelivered
  obtain ⟨hproviders, hidle, hquery, hblock, hdiscovery, hdone, htraces⟩ :=
    (hsettled ops₁).agree (hsettled ops₂) ⟨hid₁.trans hid₂.symm, hcat₁.trans hcat₂.symm⟩ hspans huntied₁
  have hcomplete : d₁.isComplete = d₂.isComplete := by
    rw [isComplete, isComplete, hdone, htransfer hops₁, htransfer hops₂]
  exact ⟨hproviders, hidle, hquery, hblock, hdiscovery, hdone, hcomplete, htraces⟩

/-- A search whose anchor comes last. -/
def lateSearch : List Op :=
  [.ingest (.ofSpans [.ofNumbers 9 2 Names.indexQuery 30 40 [] []]), .finish ⟨some 5, 60, 100⟩,
    .ingest (.ofSpans [.ofNumbers 7 1 Names.handler 10 90 [] []]),
    .ingest (.ofSpans [.ofNumbers 9 1 Names.findProviders 20 80
      [⟨Names.findProvidersCid, some (.string "cid")⟩] []])]

/-- The same search in one batch, which comes twice, and beside it a report that is no span. -/
def earlySearch : List Op :=
  let batch := .ofSpans [.ofNumbers 9 1 Names.findProviders 20 80
      [⟨Names.findProvidersCid, some (.string "cid")⟩] [], .ofNumbers 9 2 Names.indexQuery 30 40 [] [],
    .ofNumbers 0 2 Names.routingQuery 10 15 [] [], .ofNumbers 7 1 Names.handler 10 90 [] []]
  [.ingest batch, .ingest batch, .finish ⟨some 5, 60, 100⟩]

theorem late_and_early_search_converge :
    let late := (Download.ofContent "cid" (.ofNat 7) 0).run lateSearch
    let early := (Download.ofContent "cid" (.ofNat 7) 0).run earlySearch
    Coherent (delivered lateSearch) ∧ Untied "cid" (delivered lateSearch) ∧
      late.indexQuery = early.indexQuery ∧ late.discovery = early.discovery ∧
      late.store.spansByTrace = early.store.spansByTrace ∧
      early.discovery = some .index ∧ early.isComplete = true := by
  intro late early
  have hcoherent : Coherent (delivered lateSearch) := by decide
  have huntied : Untied "cid" (delivered lateSearch) := by decide
  have hlate : ∀ s ∈ delivered lateSearch, s ∈ delivered earlySearch := by decide
  have hearly : ∀ s ∈ delivered earlySearch, s ∈ delivered lateSearch := by decide
  obtain ⟨-, -, hquery, -, hdiscovery, -, -, htraces⟩ :=
    downloads_converge "cid" (.ofNat 7) 0 (some ⟨some 5, 60, 100⟩) lateSearch earlySearch
      ⟨[_], [_, _], rfl⟩ ⟨[_, _], [], rfl⟩ (fun s => ⟨hlate s, hearly s⟩) hcoherent huntied
  exact ⟨hcoherent, huntied, hquery, hdiscovery, htraces, by decide, by decide⟩

end ContentProbe.Download
