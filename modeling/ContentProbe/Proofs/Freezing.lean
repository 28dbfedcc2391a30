import ContentProbe.Proofs.Download.Convergence
import ContentProbe.Proofs.Record.Fields
import ContentProbe.Proofs.Upload.Convergence

/-!
Freezing keeps a snapshot. Nothing that a measurement shows is read from a pending span: the trace of every
anchor is tracked as soon as the anchor and what it names are known, in whichever order they came. So the
tracked spans that freezing leaves are enough to derive all of it again, and nothing that follows changes it.
-/

namespace ContentProbe

/-- Spans that were reported can be reported again. -/
theorem Span.exists_ofBatch_eq {spans : List Span} (hspans : ∀ x ∈ spans, ∃ w, Span.ofWire w = .ok x) :
    ∃ b, Span.ofBatch b = spans := by
  suffices h : ∃ reports : List Wire.Span, reports.filterMap (fun w => (Span.ofWire w).toOption) = spans by
    obtain ⟨reports, hreports⟩ := h
    exact ⟨.ofSpans reports, by simpa [Span.ofBatch] using hreports⟩
  induction spans with
  | nil => exact ⟨[], rfl⟩
  | cons x spans ih =>
      obtain ⟨w, hw⟩ := hspans x List.mem_cons_self
      obtain ⟨reports, hreports⟩ := ih fun y hy => hspans y (List.mem_cons_of_mem x hy)
      refine ⟨w :: reports, ?_⟩
      rw [List.filterMap_cons, hw, Except.toOption, hreports]

/-- No two tracked spans are at one place. -/
theorem Store.coherent_tracked {s : Store} (hs : s.WellFormed) : Coherent s.tracked.spans := by
  rw [← allSpans_discardPending]
  exact coherent_allSpans hs.discardPending

namespace Upload

/-- What two uploads show of their traces is the same. -/
structure Agrees (u v : Upload) : Prop where
  add : u.add = v.add
  provide : u.provide = v.provide
  populated : u.populated = v.populated
  spans : u.store.spansByTrace = v.store.spansByTrace

/-- Operations that deliver exactly the tracked spans of an upload, in any order and any batches and as often
as one likes, and tell its raw key if it has one. -/
structure Replays (ops : List Op) (u : Upload) : Prop where
  unfrozen : .freeze ∉ ops
  key : (publications ops).map (·.rawKey) = (u.published.map (·.rawKey)).toList
  spans : ∀ x, x ∈ delivered ops ↔ x ∈ u.store.tracked.spans

/-- Freezing an upload takes its pending spans away and nothing else; what is left derives the same again; and
after that only its error changes. -/
structure KeepsSnapshot (u : Upload) : Prop where
  freeze_eq : u.freeze = { u with store := ⟨u.store.tracked, .empty⟩, frozen := true }
  spans : u.freeze.store.spansByTrace = u.store.spansByTrace
  replayable : ∃ b, Span.ofBatch b = u.freeze.store.tracked.spans
  replay : ∀ fileSize ops, Replays ops u.freeze →
    ((Upload.start u.addTrace fileSize).run ops).Agrees u.freeze
  later : ∀ ops, u.freeze.run ops = { u.freeze with error := (u.freeze.run ops).error }
  ignores : ∀ ops b, ((u.freeze.run ops).ingest b).2 = .zero

/-- Only the raw key of what was published matters to what an upload has derived. -/
theorem Settled.republish {u : Upload} (h : u.Settled) {published : Option Published}
    (hkey : published.map (·.rawKey) = u.published.map (·.rawKey)) :
    Settled { u with published := published } := by
  have hannouncements : announcements { u with published := published } = u.announcements := by
    unfold announcements
    cases hp : u.published with
    | none =>
        rw [hp, Option.map_none, Option.map_eq_none_iff] at hkey
        simp [hkey]
    | some p =>
        rw [hp, Option.map_some, Option.map_eq_some_iff] at hkey
        obtain ⟨q, rfl, hq⟩ := hkey
        simp [hq]
  refine ⟨h.store, fun t => ?_, h.add, ?_, h.populated⟩
  · rw [hannouncements]
    exact h.tracked t
  · have hbind (found : Option Published) : (found.bind fun p => provideOf p.rawKey u.store) =
        (found.map (·.rawKey)).bind fun key => provideOf key u.store := by
      cases found <;> rfl
    change u.provide = published.bind fun p => provideOf p.rawKey u.store
    rw [h.provide, hbind, hbind, hkey]

/-- Settled uploads of one trace and raw key that hold the same spans agree. -/
theorem Settled.agrees {u v : Upload} (hu : u.Settled) (hv : v.Settled) (htrace : u.addTrace = v.addTrace)
    (hkey : u.published.map (·.rawKey) = v.published.map (·.rawKey))
    (hspans : ∀ x, x ∈ u.store.allSpans ↔ x ∈ v.store.allSpans) : u.Agrees v := by
  obtain ⟨hadd, hprovide, hpopulated, htraces⟩ := hu.agree (hv.republish hkey) htrace rfl hspans
  exact ⟨hadd, hprovide, hpopulated, htraces⟩

/-- A new upload to which the tracked spans of a settled one are replayed agrees with it once it is
frozen. -/
theorem Settled.replay {u : Upload} (h : u.Settled) (fileSize : Nat) {ops : List Op}
    (hops : Replays ops u.freeze) : ((Upload.start u.addTrace fileSize).run ops).Agrees u.freeze := by
  have hlength : (publications ops).length ≤ 1 := by
    rw [← List.length_map (·.rawKey), hops.key]
    cases u.freeze.published <;> simp
  have hsettled : ((Upload.start u.addTrace fileSize).run ops).Settled :=
    (Settled.start u.addTrace fileSize).run ops (by simpa [Upload.start] using hlength)
  have hkey : ((Upload.start u.addTrace fileSize).run ops).published.map (·.rawKey) =
      u.freeze.published.map (·.rawKey) := by
    have hpublished :
        ((Upload.start u.addTrace fileSize).run ops).published = (publications ops).getLast? := by
      rw [published_run rfl hops.unfrozen]
      exact Option.or_none
    rw [hpublished, ← List.getLast?_map, hops.key]
    cases u.freeze.published <;> rfl
  refine hsettled.agrees h.freeze (addTrace_run _ _) hkey fun x => ?_
  have hcoherent : Coherent (delivered ops) :=
    (Store.coherent_tracked h.freeze.store).congr fun x => (hops.spans x).symm
  rw [(holds_run_new u.addTrace fileSize hops.unfrozen).mem_iff_of_coherent hcoherent, hops.spans]
  exact (congrArg (x ∈ ·) (Store.allSpans_discardPending u.store)).symm.to_iff

/-- An upload that has been frozen learns nothing but errors. -/
theorem step_of_frozen {u : Upload} (h : u.freeze = u) (op : Op) :
    u.step op = { u with error := (u.step op).error } := by
  have hfrozen : u.frozen = true := (congrArg Upload.frozen h).symm
  cases op with
  | ingest b => rw [step, ingest_fst, if_pos hfrozen]
  | publish contentId rawKey => rw [step, publish, if_pos hfrozen]
  | fail error => rfl
  | freeze => rw [step, h]

theorem run_of_frozen {u : Upload} (h : u.freeze = u) (ops : List Op) :
    u.run ops = { u with error := (u.run ops).error } := by
  induction ops generalizing u with
  | nil => rfl
  | cons op ops ih =>
      have hstep := step_of_frozen h op
      have hfrozen : (u.step op).freeze = u.step op := by
        rw [hstep]
        exact congrArg (fun v : Upload => { v with error := (u.step op).error }) h
      have htail : (u.step op).run ops = { u.step op with error := ((u.step op).run ops).error } := ih hfrozen
      change (u.step op).run ops = { u with error := ((u.step op).run ops).error }
      rw [htail, hstep]

theorem Settled.keepsSnapshot {u : Upload} (h : u.Settled)
    (hreported : ∀ x ∈ u.store.tracked.spans, ∃ w, Span.ofWire w = .ok x) : u.KeepsSnapshot where
  freeze_eq := rfl
  spans := rfl
  replayable := Span.exists_ofBatch_eq hreported
  replay fileSize _ hops := h.replay fileSize hops
  later ops := run_of_frozen rfl ops
  ignores ops b := by
    rw [run_of_frozen rfl ops]
    rfl

/-- Whatever is delivered was reported. -/
theorem exists_ofWire_of_mem_delivered {ops : List Op} {x : Span} (hx : x ∈ delivered ops) :
    ∃ w, Span.ofWire w = .ok x := by
  obtain ⟨op, -, hx⟩ := List.mem_flatMap.mp hx
  cases op with
  | ingest b =>
      obtain ⟨w, -, hw⟩ := Span.mem_ofBatch.mp hx
      exact ⟨w, hw⟩
  | publish contentId rawKey => exact nomatch hx
  | fail error => exact nomatch hx
  | freeze => exact nomatch hx

theorem keepsSnapshot_run (addTrace : TraceId) (fileSize : Nat) {ops : List Op}
    (honce : (publications ops).length ≤ 1) : ((Upload.start addTrace fileSize).run ops).KeepsSnapshot := by
  have hstart : (Upload.start addTrace fileSize).Settled := .start addTrace fileSize
  refine (hstart.run ops (by simpa [Upload.start] using honce)).keepsSnapshot fun x hx => ?_
  rcases (Derived.start addTrace fileSize).mem_of_mem_run (List.mem_append_left _ hx) with hold | hdelivered
  · simp [Upload.start, Store.allSpans_tracking] at hold
  · exact exists_ofWire_of_mem_delivered hdelivered

end Upload

namespace Download

/-- What two downloads show of their traces is the same. -/
structure Agrees (d e : Download) : Prop where
  providers : d.providers = e.providers
  idleBroadcast : d.idleBroadcast = e.idleBroadcast
  indexQuery : d.indexQuery = e.indexQuery
  firstBlock : d.firstBlock = e.firstBlock
  discovery : d.discovery = e.discovery
  done : d.done = e.done
  spans : d.store.spansByTrace = e.store.spansByTrace

/-- Operations that deliver exactly the tracked spans of a download, in any order and any batches and as often
as one likes. -/
structure Replays (ops : List Op) (d : Download) : Prop where
  unfrozen : .freeze ∉ ops
  spans : ∀ x, x ∈ delivered ops ↔ x ∈ d.store.tracked.spans

/-- Freezing a download takes its pending spans away and nothing else; what is left derives the same again;
and after that only its error changes and, since the transfer is measured apart from the traces, its
transfer. -/
structure KeepsSnapshot (d : Download) : Prop where
  freeze_eq : d.freeze = { d with store := ⟨d.store.tracked, .empty⟩, frozen := true }
  spans : d.freeze.store.spansByTrace = d.store.spansByTrace
  replayable : ∃ b, Span.ofBatch b = d.freeze.store.tracked.spans
  replay : ∀ start ops, Replays ops d.freeze →
    ((Download.ofContent d.contentId d.catTrace start).run ops).Agrees d.freeze
  later : ∀ ops, d.freeze.run ops =
    { d.freeze with transfer := (transfers ops).getLast?.or d.transfer, error := (d.freeze.run ops).error }
  ignores : ∀ ops b, ((d.freeze.run ops).ingest b).2 = .zero

/-- Spans that are tied after freezing were tied before, since every anchor is tracked. -/
theorem Untied.discardPending {contentId : String} {store : Store} (hs : store.WellFormed)
    (htracked : AnchorsTracked contentId store) (h : Untied contentId store.allSpans) :
    Untied contentId store.discardPending.allSpans := by
  have hqueries (q : Span) : q ∈ searchQueries contentId store.discardPending.allSpans ↔
      q ∈ searchQueries contentId store.allSpans := by
    simp only [mem_searchQueries, Store.mem_allSpans_discardPending hs]
    constructor
    · rintro ⟨⟨-, hq⟩, hname, a, ⟨-, ha⟩, hanchor, hat⟩
      exact ⟨hq, hname, a, ha, hanchor, hat⟩
    · rintro ⟨hq, hname, a, ha, hanchor, hat⟩
      have hat' := htracked a (mem_anchors.mpr ⟨ha, hanchor⟩)
      exact ⟨⟨hat ▸ hat', hq⟩, hname, a, ⟨hat', ha⟩, hanchor, hat⟩
  intro q hq q' hq' hfirst
  refine h q ((hqueries q).mp hq) q' ((hqueries q').mp hq') fun x hx => ?_
  exact hfirst x ((hqueries x).mpr hx)

/-- A new download to which the tracked spans of a settled one are replayed agrees with it once it is
frozen. -/
theorem Settled.replay {d : Download} (h : d.Settled) (huntied : Untied d.contentId d.store.allSpans)
    (start : Nat) {ops : List Op} (hops : Replays ops d.freeze) :
    ((Download.ofContent d.contentId d.catTrace start).run ops).Agrees d.freeze := by
  have hsettled : ((Download.ofContent d.contentId d.catTrace start).run ops).Settled :=
    (Settled.ofContent d.contentId d.catTrace start).run ops
  obtain ⟨hid, hcat⟩ := request_run (Download.ofContent d.contentId d.catTrace start) ops
  have hcoherent : Coherent (delivered ops) :=
    (Store.coherent_tracked h.freeze.store).congr fun x => (hops.spans x).symm
  have hspans (x : Span) : x ∈ d.freeze.store.allSpans ↔
      x ∈ ((Download.ofContent d.contentId d.catTrace start).run ops).store.allSpans := by
    rw [(holds_run_new d.contentId d.catTrace start hops.unfrozen).mem_iff_of_coherent hcoherent, hops.spans]
    exact (congrArg (x ∈ ·) (Store.allSpans_discardPending d.store)).to_iff
  have huntied' : Untied d.freeze.contentId d.freeze.store.allSpans :=
    huntied.discardPending h.store h.anchorsTracked
  obtain ⟨hproviders, hidle, hquery, hblock, hdiscovery, hdone, htraces⟩ :=
    h.freeze.agree hsettled ⟨hid.symm, hcat.symm⟩ hspans huntied'
  exact ⟨hproviders.symm, hidle.symm, hquery.symm, hblock.symm, hdiscovery.symm, hdone.symm, htraces.symm⟩

/-- A download that has been frozen learns nothing but errors and the end of its transfer. -/
theorem step_of_frozen {d : Download} (h : d.freeze = d) (op : Op) :
    d.step op = { d with transfer := (d.step op).transfer, error := (d.step op).error } := by
  have hfrozen : d.frozen = true := (congrArg Download.frozen h).symm
  cases op with
  | ingest b => rw [step, ingest_fst, if_pos hfrozen]
  | finish t => rfl
  | fail error => rfl
  | freeze => rw [step, h]

theorem run_of_frozen {d : Download} (h : d.freeze = d) (ops : List Op) :
    d.run ops = { d with transfer := (d.run ops).transfer, error := (d.run ops).error } := by
  induction ops generalizing d with
  | nil => rfl
  | cons op ops ih =>
      have hstep := step_of_frozen h op
      have hfrozen : (d.step op).freeze = d.step op := by
        rw [hstep]
        exact congrArg
          (fun e : Download => { e with transfer := (d.step op).transfer, error := (d.step op).error }) h
      have htail : (d.step op).run ops =
          { d.step op with
            transfer := ((d.step op).run ops).transfer, error := ((d.step op).run ops).error } := ih hfrozen
      change (d.step op).run ops =
        { d with transfer := ((d.step op).run ops).transfer, error := ((d.step op).run ops).error }
      rw [htail, hstep]

theorem Settled.keepsSnapshot {d : Download} (h : d.Settled) (huntied : Untied d.contentId d.store.allSpans)
    (hreported : ∀ x ∈ d.store.tracked.spans, ∃ w, Span.ofWire w = .ok x) : d.KeepsSnapshot where
  freeze_eq := rfl
  spans := rfl
  replayable := Span.exists_ofBatch_eq hreported
  replay start _ hops := h.replay huntied start hops
  later ops := by
    rw [← show d.freeze.transfer = d.transfer from rfl, ← transfer_run]
    exact run_of_frozen rfl ops
  ignores ops b := by
    rw [run_of_frozen rfl ops]
    rfl

/-- Whatever is delivered was reported. -/
theorem exists_ofWire_of_mem_delivered {ops : List Op} {x : Span} (hx : x ∈ delivered ops) :
    ∃ w, Span.ofWire w = .ok x := by
  obtain ⟨op, -, hx⟩ := List.mem_flatMap.mp hx
  cases op with
  | ingest b =>
      obtain ⟨w, -, hw⟩ := Span.mem_ofBatch.mp hx
      exact ⟨w, hw⟩
  | finish t => exact nomatch hx
  | fail error => exact nomatch hx
  | freeze => exact nomatch hx

theorem keepsSnapshot_run (contentId : String) (catTrace : TraceId) (start : Nat) {ops : List Op}
    (huntied : Untied contentId ((Download.ofContent contentId catTrace start).run ops).store.allSpans) :
    ((Download.ofContent contentId catTrace start).run ops).KeepsSnapshot := by
  have hstart : (Download.ofContent contentId catTrace start).Settled := .ofContent contentId catTrace start
  refine (hstart.run ops).keepsSnapshot ?_ fun x hx => ?_
  · rw [(request_run _ ops).1]
    exact huntied
  · rcases hstart.mem_of_mem_run (List.mem_append_left _ hx) with hold | hdelivered
    · simp [Download.ofContent, Store.allSpans_tracking] at hold
    · exact exists_ofWire_of_mem_delivered hdelivered

end Download

/-- Whatever was done to a new upload that was told at most one content id, and to a new download whose
earliest queries to an index are not tied, freezing keeps a snapshot: it changes nothing that is shown, the
spans that it leaves derive the same in a new measurement of the same probe, and nothing that is done later
changes what is shown or takes in a span. -/
theorem freezing_keeps_snapshot (contentId : String) (addTrace catTrace : TraceId) (fileSize start : Nat)
    (uploadOps : List Upload.Op) (downloadOps : List Download.Op)
    (honce : (Upload.publications uploadOps).length ≤ 1)
    (huntied : Download.Untied contentId
      ((Download.ofContent contentId catTrace start).run downloadOps).store.allSpans) :
    ((Upload.start addTrace fileSize).run uploadOps).KeepsSnapshot ∧
      ((Download.ofContent contentId catTrace start).run downloadOps).KeepsSnapshot :=
  ⟨Upload.keepsSnapshot_run addTrace fileSize honce,
    Download.keepsSnapshot_run contentId catTrace start huntied⟩

/-- An anchor that comes before its key is known, a child of it, and a span of no tracked trace. -/
def earlyAnchor : List Upload.Op :=
  [.ingest (.ofSpans [.ofNumbers 9 1 Names.provide 30 40 [⟨Names.provideKey, some (.string "raw")⟩] [],
      .ofNumbers 9 2 "child" 35 50 [] [], .ofNumbers 11 1 "other" 1 99 [] []]),
    .publish "cid" "raw", .ingest (.ofSpans [.ofNumbers 7 1 "add" 10 20 [] []])]

/-- What is left of them once the upload is frozen, in another order and before the key. -/
def replayedAnchor : List Upload.Op :=
  [.ingest (.ofSpans [.ofNumbers 7 1 "add" 10 20 [] []]),
    .ingest (.ofSpans [.ofNumbers 9 2 "child" 35 50 [] [],
      .ofNumbers 9 1 Names.provide 30 40 [⟨Names.provideKey, some (.string "raw")⟩] []]),
    .publish "cid" "raw"]

theorem frozen_early_anchor_replays :
    let u := (Upload.start (.ofNat 7) 100).run earlyAnchor
    let d := (Download.ofContent "cid" (.ofNat 7) 0).run Download.lateSearch
    (Upload.publications earlyAnchor).length ≤ 1 ∧ Download.Untied "cid" d.store.allSpans ∧
      Upload.Replays replayedAnchor u.freeze ∧ Download.Replays Download.earlySearch d.freeze ∧
      ((Upload.start (.ofNat 7) 100).run replayedAnchor).Agrees u.freeze ∧
      ((Download.ofContent "cid" (.ofNat 7) 0).run Download.earlySearch).Agrees d.freeze ∧
      u.freeze.provide = some ⟨.ofNat 9, ⟨30, 50⟩⟩ ∧ u.store.allSpans.length = 4 ∧
      u.freeze.store.allSpans.length = 3 := by
  intro u d
  have honce : (Upload.publications earlyAnchor).length ≤ 1 := by decide
  have huntied : Download.Untied "cid" d.store.allSpans := by decide
  obtain ⟨hu, hd⟩ := freezing_keeps_snapshot "cid" (.ofNat 7) (.ofNat 7) 100 0 earlyAnchor
    Download.lateSearch honce huntied
  have hdelivered : ∀ x ∈ Upload.delivered replayedAnchor, x ∈ u.freeze.store.tracked.spans := by decide
  have htracked : ∀ x ∈ u.freeze.store.tracked.spans, x ∈ Upload.delivered replayedAnchor := by decide
  have hsearched : ∀ x ∈ Download.delivered Download.earlySearch, x ∈ d.freeze.store.tracked.spans := by
    decide
  have hsearch : ∀ x ∈ d.freeze.store.tracked.spans, x ∈ Download.delivered Download.earlySearch := by
    decide
  have hu' : Upload.Replays replayedAnchor u.freeze :=
    ⟨by simp [replayedAnchor], by decide, fun x => ⟨hdelivered x, htracked x⟩⟩
  have hd' : Download.Replays Download.earlySearch d.freeze :=
    ⟨by simp [Download.earlySearch], fun x => ⟨hsearched x, hsearch x⟩⟩
  exact ⟨honce, huntied, hu', hd', hu.replay 100 _ hu', hd.replay 0 _ hd', by decide, by decide,
    by decide⟩

end ContentProbe
