import ContentProbe.Proofs.Download.Runs
import ContentProbe.Proofs.Upload.Runs
import ContentProbe.Record.Basic

/-!
Which fields are known together, and in which order the times of a field lie. The trace of an announcement
is read off the anchors, its start and its end off the tracked spans, and that an anchor's trace is tracked
before its spans are read is what keeps them together. No interval ends before it starts, since no stored span
does: every one was delivered, and a report that ends before it starts is not well-formed. This holds after
any operations, also when the content id is told again or the measurement is frozen before its end. So a
record of a measurement never holds a length of time below zero where it records an interval.
-/

namespace ContentProbe

open ContentProbe.Time

namespace Upload

/-! Every operation -/

/-- What an upload shows of its store, however often its content id was told. -/
structure Derived (u : Upload) : Prop where
  store : u.store.WellFormed
  anchorsTracked : ∀ p ∈ u.published, AnchorsTracked p.rawKey u.store
  add : u.add = u.store.traceInterval? u.addTrace
  provide : u.provide = u.published.bind fun p => provideOf p.rawKey u.store

theorem derived_derive {u : Upload} (hs : u.store.WellFormed)
    (hnone : u.published = none → u.provide = none) : (derive u).Derived := by
  refine ⟨?_, fun p hp a ha => ?_, ?_, ?_⟩
  · rw [derive_store]
    exact hs.trackAll _
  · have hp : u.published = some p := (derive_published u).symm.trans hp
    have hannounced : a ∈ u.announcements := by
      rw [← mem_announcements_derive hs]
      simpa only [announcements, derive_published, hp] using ha
    rw [derive_store, Store.isTracked_trackAll]
    exact Or.inl (List.mem_map_of_mem hannounced)
  · rw [derive_add, derive_addTrace]
  · rw [derive_provide, derive_published]
    cases hp : u.published with
    | none => exact hnone hp
    | some p => rfl

theorem Derived.start (addTrace : TraceId) (fileSize : Nat) : (Upload.start addTrace fileSize).Derived :=
  ⟨.tracking _, nofun, (Store.traceInterval?_tracking [addTrace] addTrace).symm, rfl⟩

theorem Derived.step {u : Upload} (h : u.Derived) (op : Op) : (u.step op).Derived := by
  have hnone (hp : u.published = none) : u.provide = none := by
    simp [h.provide, hp]
  cases op with
  | ingest b =>
      change (u.ingest b).1.Derived
      rw [ingest_fst]
      split
      · exact h
      · exact derived_derive (h.store.ingest b) hnone
  | publish contentId rawKey =>
      change (u.publish contentId rawKey).Derived
      unfold Upload.publish
      split
      · exact h
      · exact derived_derive h.store nofun
  | fail error => exact ⟨h.store, h.anchorsTracked, h.add, h.provide⟩
  | freeze =>
      refine ⟨h.store.discardPending, fun p hp a ha => ?_, h.add, ?_⟩
      · exact h.anchorsTracked p hp a ((anchors_discardPending h.store (h.anchorsTracked p hp)).symm ▸ ha)
      · change u.provide = u.published.bind fun p => provideOf p.rawKey u.store.discardPending
        rw [h.provide]
        cases hp : u.published with
        | none => rfl
        | some p => exact (provideOf_discardPending h.store (h.anchorsTracked p hp)).symm

theorem Derived.run {u : Upload} (h : u.Derived) (ops : List Op) : (u.run ops).Derived := by
  induction ops generalizing u with
  | nil => exact h
  | cons op ops ih => exact ih (h.step op)

/-- Whatever an upload holds was delivered to it. -/
theorem Derived.mem_of_mem_run {u : Upload} (h : u.Derived) {ops : List Op} {x : Span}
    (hx : x ∈ (u.run ops).store.allSpans) : x ∈ u.store.allSpans ∨ x ∈ delivered ops := by
  induction ops generalizing u with
  | nil => exact Or.inl hx
  | cons op ops ih =>
      rw [delivered, List.flatMap_cons, List.mem_append]
      rcases ih (h.step op) hx with hstep | hlater
      · exact (mem_of_mem_step h.store hstep).imp_right Or.inl
      · exact Or.inr (Or.inr hlater)

theorem start_le_finish_of_mem_delivered {ops : List Op} {x : Span} (hx : x ∈ delivered ops) :
    x.start ≤ x.finish := by
  obtain ⟨op, -, hx⟩ := List.mem_flatMap.mp hx
  cases op with
  | ingest b => exact Span.start_le_finish_of_mem_ofBatch hx
  | publish contentId rawKey => exact nomatch hx
  | fail error => exact nomatch hx
  | freeze => exact nomatch hx

/-! The fields, each read off the store by itself -/

/-- The stored spans of the add request. -/
def addSpans (u : Upload) : List Span := (u.store.tracked.get? u.addTrace).getD []

def addStart? (u : Upload) : Option Nat := (u.addSpans.map (·.start)).min?

def addFinish? (u : Upload) : Option Nat := (u.addSpans.map (·.finish)).max?

/-- The tracked spans of all announcing traces. -/
def announcedSpans (u : Upload) : List Span :=
  match u.published with
  | none => []
  | some p => provideSpans p.rawKey u.store

/-- The trace of the earliest anchor. -/
def provideTrace? (u : Upload) : Option TraceId := (firstBy? anchorBefore u.announcements).map (·.trace)

def provideStart? (u : Upload) : Option Nat := (u.announcedSpans.map (·.start)).min?

def provideFinish? (u : Upload) : Option Nat := (u.announcedSpans.map (·.finish)).max?

/-- The fields of an upload, each read by itself, are there together or missing together, since they are the
parts of one add interval and of one announcement; and neither interval ends before it starts. -/
structure Coupled (u : Upload) : Prop where
  addTogether : u.addStart?.isSome = u.addFinish?.isSome
  provideTogether : u.provideTrace?.isSome = u.provideStart?.isSome ∧
    u.provideStart?.isSome = u.provideFinish?.isSome
  addParts : u.addStart? = u.add.map (·.start) ∧ u.addFinish? = u.add.map (·.finish)
  provideParts : u.provideTrace? = u.provide.map (·.trace) ∧
    u.provideStart? = u.provide.map (·.interval.start) ∧ u.provideFinish? = u.provide.map (·.interval.finish)
  addOrdered : ∀ i ∈ u.add, i.start ≤ i.finish
  provideOrdered : ∀ p ∈ u.provide, p.interval.start ≤ p.interval.finish

theorem Derived.add_eq {u : Upload} (h : u.Derived) : u.add = Interval.ofSpans? u.addSpans :=
  h.add.trans (Store.traceInterval?_eq ..)

theorem Derived.provide_parts {u : Upload} (h : u.Derived) :
    u.provide.map (·.trace) = u.provideTrace? ∧
      u.provide.map (·.interval) = Interval.ofSpans? u.announcedSpans := by
  unfold provideTrace? announcements announcedSpans
  rw [h.provide]
  cases hp : u.published with
  | none => exact ⟨rfl, rfl⟩
  | some p => exact provideOf_parts h.store (h.anchorsTracked p hp)

theorem Derived.mem_of_mem_announcedSpans {u : Upload} (h : u.Derived) {x : Span}
    (hx : x ∈ u.announcedSpans) : x ∈ u.store.allSpans := by
  unfold announcedSpans at hx
  cases hp : u.published with
  | none => simp [hp] at hx
  | some p =>
      rw [hp] at hx
      exact ((mem_provideSpans h.store (h.anchorsTracked p hp)).mp hx).1

theorem Derived.coupled {u : Upload} (h : u.Derived)
    (hordered : ∀ x ∈ u.store.allSpans, x.start ≤ x.finish) : u.Coupled := by
  obtain ⟨htrace, hinterval⟩ := h.provide_parts
  obtain ⟨haddStart, haddFinish⟩ :
      u.add.map (·.start) = u.addStart? ∧ u.add.map (·.finish) = u.addFinish? := by
    rw [h.add_eq]
    exact Interval.ofSpans?_ends u.addSpans
  obtain ⟨hprovideStart, hprovideFinish⟩ :
      u.provide.map (·.interval.start) = u.provideStart? ∧
        u.provide.map (·.interval.finish) = u.provideFinish? := by
    have hends := Interval.ofSpans?_ends u.announcedSpans
    rwa [← hinterval, Option.map_map, Option.map_map] at hends
  refine ⟨?_, ?_, ⟨haddStart.symm, haddFinish.symm⟩,
    ⟨htrace.symm, hprovideStart.symm, hprovideFinish.symm⟩, fun i hi => ?_, fun p hp => ?_⟩
  · rw [← haddStart, ← haddFinish, Option.isSome_map, Option.isSome_map]
  · simp only [← htrace, ← hprovideStart, ← hprovideFinish, Option.isSome_map, and_self]
  · refine Interval.ofSpans?_ordered (fun x hx => ?_) (h.add_eq.symm.trans hi)
    exact hordered x ((Store.mem_trace_iff h.store).mp hx).2.2
  · exact Interval.ofSpans?_ordered (fun x hx => hordered x (h.mem_of_mem_announcedSpans hx))
      (hinterval.symm.trans (congrArg (Option.map (·.interval)) hp))

theorem Coupled.of_run (addTrace : TraceId) (fileSize : Nat) (ops : List Op) :
    ((Upload.start addTrace fileSize).run ops).Coupled := by
  have hstart : (Upload.start addTrace fileSize).Derived := .start addTrace fileSize
  have hempty : (Upload.start addTrace fileSize).store.allSpans = [] := Store.allSpans_tracking [addTrace]
  refine (hstart.run ops).coupled fun x hx => ?_
  rcases hstart.mem_of_mem_run hx with hold | hdelivered
  · simp [hempty] at hold
  · exact start_le_finish_of_mem_delivered hdelivered

/-- An upload whose content id was told at most once is populated exactly while both its intervals are
known. -/
theorem Settled.populated_iff {u : Upload} (h : u.Settled) (hc : u.Coupled) :
    u.populated = true ↔ u.addStart?.isSome = true ∧ u.provideStart?.isSome = true := by
  rw [h.populated, hc.addParts.1, hc.provideParts.2.1, Option.isSome_map, Option.isSome_map, Bool.and_eq_true]

end Upload

namespace Download

/-- Whatever a download holds was delivered to it. -/
theorem Settled.mem_of_mem_run {d : Download} (h : d.Settled) {ops : List Op} {x : Span}
    (hx : x ∈ (d.run ops).store.allSpans) : x ∈ d.store.allSpans ∨ x ∈ delivered ops := by
  induction ops generalizing d with
  | nil => exact Or.inl hx
  | cons op ops ih =>
      rw [delivered, List.flatMap_cons, List.mem_append]
      rcases ih (h.step op) hx with hstep | hlater
      · exact (mem_of_mem_step h.store hstep).imp_right Or.inl
      · exact Or.inr (Or.inr hlater)

theorem start_le_finish_of_mem_delivered {ops : List Op} {x : Span} (hx : x ∈ delivered ops) :
    x.start ≤ x.finish := by
  obtain ⟨op, -, hx⟩ := List.mem_flatMap.mp hx
  cases op with
  | ingest b => exact Span.start_le_finish_of_mem_ofBatch hx
  | finish t => exact nomatch hx
  | fail error => exact nomatch hx
  | freeze => exact nomatch hx

/-- No more providers are connected to than found; there is a first one as soon as one is connected to, and
both its times were seen on anchors; and the index query is one stored span of a search trace, from which its
start, its end and its status come. -/
structure Coupled (d : Download) : Prop where
  connected : d.providers.connected ≤ d.providers.found
  first : d.providers.first.isSome = true ↔ 0 < d.providers.connected
  firstTimes : ∀ p ∈ d.providers.first,
    firstSeen? (sightings Names.foundProvider (anchors d.contentId d.store)) p.peer = some p.foundAt ∧
      firstSeen? (sightings Names.connectedToProvider (anchors d.contentId d.store)) p.peer =
        some p.connectedAt
  query : ∀ q ∈ d.indexQuery, q.start ≤ q.finish ∧ ∃ s, InSearch d.contentId d.store s ∧
    s.name = Names.indexQuery ∧ q = ⟨s.start, s.finish, s.attributes.int? Names.statusCode⟩

theorem Settled.coupled {d : Download} (h : d.Settled)
    (hordered : ∀ x ∈ d.store.allSpans, x.start ≤ x.finish) : d.Coupled := by
  obtain ⟨hconnected, hfirst, htimes⟩ := providersOf_coupled (anchors d.contentId d.store)
  rw [← h.providers] at hconnected hfirst htimes
  refine ⟨hconnected, hfirst, htimes, fun q hq => ?_⟩
  obtain ⟨spans, hspans, hquery⟩ := h.indexQuery
  obtain ⟨s, hs, hname, rfl⟩ := exists_of_mem_indexQueryOf (hquery ▸ hq)
  have hsearch := (hspans s).mp hs
  exact ⟨hordered s hsearch.1, s, hsearch, hname, rfl⟩

theorem Coupled.of_run (contentId : String) (catTrace : TraceId) (start : Nat) (ops : List Op) :
    ((Download.ofContent contentId catTrace start).run ops).Coupled := by
  have hstart : (Download.ofContent contentId catTrace start).Settled := .ofContent contentId catTrace start
  have hempty : (Download.ofContent contentId catTrace start).store.allSpans = [] :=
    Store.allSpans_tracking [catTrace]
  refine (hstart.run ops).coupled fun x hx => ?_
  rcases hstart.mem_of_mem_run hx with hold | hdelivered
  · simp [hempty] at hold
  · exact start_le_finish_of_mem_delivered hdelivered

end Download

/-! Records -/

theorem secondsBetween_of_le {start finish : Nat} (h : start ≤ finish) :
    secondsBetween start finish = inSeconds (finish - start) := if_pos h

/-- The recorded lengths of both intervals run forward. -/
theorem Upload.Coupled.seconds {u : Upload} (h : u.Coupled) (run : RunInfo) :
    (UploadRecord.of run u).addSeconds = u.add.map (fun i => inSeconds (i.finish - i.start)) ∧
      (UploadRecord.of run u).provideSeconds =
        u.provide.map fun p => inSeconds (p.interval.finish - p.interval.start) :=
  ⟨Option.map_congr fun i hi => secondsBetween_of_le (h.addOrdered i hi),
    Option.map_congr fun p hp => secondsBetween_of_le (h.provideOrdered p hp)⟩

theorem Download.Coupled.seconds {d : Download} (h : d.Coupled) (run : RunInfo) (cidSource : String) :
    (DownloadRecord.of run cidSource d).indexSeconds =
      d.indexQuery.map fun q => inSeconds (q.finish - q.start) :=
  Option.map_congr fun q hq => secondsBetween_of_le (h.query q hq).1

/-- After any operations the fields of an upload and of a download hang together; an upload whose content id
was told at most once is populated exactly while its add and its announcement are known; and no record of
either holds an interval that runs backward. -/
theorem fields_coupled (contentId : String) (catTrace addTrace : TraceId) (start fileSize : Nat)
    (ops : List Download.Op) (uploadOps : List Upload.Op) (run : RunInfo) (cidSource : String) :
    let d := (Download.ofContent contentId catTrace start).run ops
    let u := (Upload.start addTrace fileSize).run uploadOps
    u.Coupled ∧
      ((Upload.publications uploadOps).length ≤ 1 →
        (u.populated = true ↔ u.addStart?.isSome = true ∧ u.provideStart?.isSome = true)) ∧
      d.Coupled ∧
      (UploadRecord.of run u).addSeconds = u.add.map (fun i => inSeconds (i.finish - i.start)) ∧
      (UploadRecord.of run u).provideSeconds =
        u.provide.map (fun p => inSeconds (p.interval.finish - p.interval.start)) ∧
      (DownloadRecord.of run cidSource d).indexSeconds =
        d.indexQuery.map fun q => inSeconds (q.finish - q.start) := by
  intro d u
  have hu : u.Coupled := .of_run addTrace fileSize uploadOps
  have hd : d.Coupled := .of_run contentId catTrace start ops
  obtain ⟨hadd, hprovide⟩ := hu.seconds run
  refine ⟨hu, fun honce => ?_, hd, hadd, hprovide, hd.seconds run cidSource⟩
  have hsettled : u.Settled := (Upload.Settled.start addTrace fileSize).run uploadOps (by
    simpa [Upload.start] using honce)
  exact hsettled.populated_iff hu

/-- An upload that is announced and frozen before a last report comes. -/
def frozenUpload : List Upload.Op :=
  [.ingest (.ofSpans [.ofNumbers 7 1 "add" 10 20 [] [],
      .ofNumbers 9 1 Names.provide 30 40 [⟨Names.provideKey, some (.string "raw")⟩] []]),
    .publish "cid" "raw", .freeze, .ingest (.ofSpans [.ofNumbers 9 2 "child" 35 50 [] []])]

/-- A search that finds two peers and connects to one of them and to a third, and asks an index. -/
def frozenSearch : List Download.Op :=
  let peer (event : String) (name : String) (time : UInt64) : Wire.Event :=
    ⟨event, time, [⟨Names.peer, some (.string name)⟩], 0⟩
  [.ingest (.ofSpans [.ofNumbers 9 1 Names.findProviders 20 80
      [⟨Names.findProvidersCid, some (.string "cid")⟩]
      [peer Names.foundProvider "p" 30, peer Names.foundProvider "q" 31,
        peer Names.connectedToProvider "q" 40, peer Names.connectedToProvider "r" 35]]), .fail "late",
    .ingest (.ofSpans [.ofNumbers 9 2 Names.indexQuery 25 45 [] []]), .freeze]

theorem frozen_fields_coupled :
    let d := (Download.ofContent "cid" (.ofNat 7) 0).run frozenSearch
    let u := (Upload.start (.ofNat 7) 100).run frozenUpload
    (Upload.publications frozenUpload).length ≤ 1 ∧ u.Coupled ∧
      (u.populated = true ↔ u.addStart?.isSome = true ∧ u.provideStart?.isSome = true) ∧ d.Coupled ∧
      u.add = some ⟨10, 20⟩ ∧ u.provide = some ⟨.ofNat 9, ⟨30, 40⟩⟩ ∧
      d.providers = ⟨2, 1, some ⟨"q", 31, 40⟩⟩ ∧ d.indexQuery = some ⟨25, 45, none⟩ := by
  intro d u
  have honce : (Upload.publications frozenUpload).length ≤ 1 := by decide
  obtain ⟨hu, hpopulated, hd, -⟩ :=
    fields_coupled "cid" (.ofNat 7) (.ofNat 7) 0 100 frozenSearch frozenUpload .empty ""
  exact ⟨honce, hu, hpopulated honce, hd, by decide, by decide, by decide, by decide⟩

end ContentProbe
