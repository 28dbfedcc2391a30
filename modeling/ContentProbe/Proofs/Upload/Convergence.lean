import ContentProbe.Proofs.Upload.Runs

/-!
Uploads converge: what an upload shows in the end depends on the set of well-formed spans that it was
delivered, not on their order, on repetitions, on how they were batched or on when the content id was learned.
-/

namespace ContentProbe.Upload

/-- Settled uploads of one trace and content id that hold the same spans show the same. -/
theorem Settled.agree {u v : Upload} (hu : u.Settled) (hv : v.Settled) (htrace : u.addTrace = v.addTrace)
    (hpublished : u.published = v.published)
    (hspans : ∀ x, x ∈ u.store.allSpans ↔ x ∈ v.store.allSpans) :
    u.add = v.add ∧ u.provide = v.provide ∧ u.populated = v.populated ∧
      u.store.spansByTrace = v.store.spansByTrace := by
  have hannouncements (x : Span) : x ∈ u.announcements ↔ x ∈ v.announcements := by
    unfold announcements
    rw [hpublished]
    cases v.published with
    | none => rfl
    | some p => simp only [mem_anchors, hspans]
  have htracked (t : TraceId) : u.store.isTracked t = true ↔ v.store.isTracked t = true := by
    simp only [hu.tracked, hv.tracked, htrace, hannouncements]
  have hadd : u.add = v.add := by
    rw [hu.add, hv.add, htrace]
    exact Store.traceInterval?_congr hu.store hv.store htracked hspans v.addTrace
  have hprovide : u.provide = v.provide := by
    rw [hu.provide, hv.provide, hpublished]
    cases hp : v.published with
    | none => rfl
    | some p =>
        exact provideOf_congr_of_spans hu.store hv.store (hu.anchorsTracked (hpublished.trans hp))
          (hv.anchorsTracked hp) hspans
  exact ⟨hadd, hprovide, by rw [hu.populated, hv.populated, hadd, hprovide],
    Store.spansByTrace_congr hu.store hv.store htracked hspans⟩

/-- Batches are taken in, and at one point among them the content id is learned. -/
def PublishesOnce (contentId rawKey : String) (ops : List Op) : Prop :=
  ∃ before after : List Wire.Batch,
    ops = before.map .ingest ++ .publish contentId rawKey :: after.map .ingest

theorem publications_map_ingest (batches : List Wire.Batch) : publications (batches.map .ingest) = [] := by
  simp [publications, Op.published?]

theorem PublishesOnce.publications_eq {contentId rawKey : String} {ops : List Op}
    (h : PublishesOnce contentId rawKey ops) : publications ops = [⟨contentId, rawKey⟩] := by
  obtain ⟨before, after, rfl⟩ := h
  have hpublish : publications (.publish contentId rawKey :: after.map .ingest) =
      ⟨contentId, rawKey⟩ :: publications (after.map .ingest) := rfl
  rw [publications, List.filterMap_append, ← publications, ← publications, hpublish,
    publications_map_ingest, publications_map_ingest, List.nil_append]

theorem PublishesOnce.freeze_not_mem {contentId rawKey : String} {ops : List Op}
    (h : PublishesOnce contentId rawKey ops) : .freeze ∉ ops := by
  obtain ⟨before, after, rfl⟩ := h
  simp

section

variable {contentId rawKey : String} {ops : List Op}

theorem PublishesOnce.settled (h : PublishesOnce contentId rawKey ops) (addTrace : TraceId)
    (fileSize : Nat) : ((Upload.start addTrace fileSize).run ops).Settled :=
  (Settled.start addTrace fileSize).run ops (by simp [h.publications_eq, Upload.start])

theorem PublishesOnce.published_run (h : PublishesOnce contentId rawKey ops) (addTrace : TraceId)
    (fileSize : Nat) : ((Upload.start addTrace fileSize).run ops).published = some ⟨contentId, rawKey⟩ := by
  rw [Upload.published_run rfl h.freeze_not_mem, h.publications_eq]
  rfl

theorem PublishesOnce.holds (h : PublishesOnce contentId rawKey ops) (addTrace : TraceId)
    (fileSize : Nat) : ((Upload.start addTrace fileSize).run ops).store.Holds (delivered ops) :=
  holds_run_new addTrace fileSize h.freeze_not_mem

end

/-- Two runs of a new upload that are told the same content id once and are delivered the same well-formed
spans, no two of which disagree about a place, show the same intervals, the same announcement and the same
tracked spans, and are complete together. -/
theorem uploads_converge (addTrace : TraceId) (fileSize : Nat) (contentId rawKey : String)
    (ops₁ ops₂ : List Op) (hops₁ : PublishesOnce contentId rawKey ops₁)
    (hops₂ : PublishesOnce contentId rawKey ops₂)
    (hsame : ∀ s, s ∈ delivered ops₁ ↔ s ∈ delivered ops₂) (hcoherent : Coherent (delivered ops₁)) :
    let u₁ := (Upload.start addTrace fileSize).run ops₁
    let u₂ := (Upload.start addTrace fileSize).run ops₂
    u₁.add = u₂.add ∧ u₁.provide = u₂.provide ∧ u₁.populated = u₂.populated ∧
      u₁.isComplete = u₂.isComplete ∧ u₁.store.spansByTrace = u₂.store.spansByTrace := by
  intro u₁ u₂
  have hspans (x : Span) : x ∈ u₁.store.allSpans ↔ x ∈ u₂.store.allSpans := by
    rw [(hops₁.holds addTrace fileSize).mem_iff_of_coherent hcoherent,
      (hops₂.holds addTrace fileSize).mem_iff_of_coherent (hcoherent.congr hsame), hsame]
  have hpublished : u₁.published = u₂.published :=
    (hops₁.published_run addTrace fileSize).trans (hops₂.published_run addTrace fileSize).symm
  obtain ⟨hadd, hprovide, hpopulated, htraces⟩ :=
    (hops₁.settled addTrace fileSize).agree (hops₂.settled addTrace fileSize)
      ((addTrace_run _ _).trans (addTrace_run _ _).symm) hpublished hspans
  exact ⟨hadd, hprovide, hpopulated, hpopulated, htraces⟩

/-- An announcement of which the anchor comes last and the content id first. -/
def lateAnnouncement : List Op :=
  [.publish "cid" "raw", .ingest (.ofSpans [.ofNumbers 9 2 "child" 35 50 [] []]),
    .ingest (.ofSpans [.ofNumbers 7 1 "add" 10 20 [] []]),
    .ingest (.ofSpans [.ofNumbers 9 1 Names.provide 30 40 [⟨Names.provideKey, some (.string "raw")⟩] []])]

/-- The same announcement in one batch, which comes twice before the content id, and beside it a report that
is no span. -/
def earlyAnnouncement : List Op :=
  let batch := .ofSpans [.ofNumbers 9 1 Names.provide 30 40 [⟨Names.provideKey, some (.string "raw")⟩] [],
    .ofNumbers 0 1 "add" 1 2 [] [], .ofNumbers 7 1 "add" 10 20 [] [], .ofNumbers 9 2 "child" 35 50 [] []]
  [.ingest batch, .ingest batch, .publish "cid" "raw"]

theorem late_and_early_announcement_converge :
    let late := (Upload.start (.ofNat 7) 100).run lateAnnouncement
    let early := (Upload.start (.ofNat 7) 100).run earlyAnnouncement
    Coherent (delivered lateAnnouncement) ∧ late.add = early.add ∧ late.provide = early.provide ∧
      late.isComplete = early.isComplete ∧ late.store.spansByTrace = early.store.spansByTrace ∧
      early.provide = some ⟨.ofNat 9, ⟨30, 50⟩⟩ ∧ early.isComplete = true := by
  intro late early
  have hcoherent : Coherent (delivered lateAnnouncement) := by decide
  have hlate : ∀ s ∈ delivered lateAnnouncement, s ∈ delivered earlyAnnouncement := by decide
  have hearly : ∀ s ∈ delivered earlyAnnouncement, s ∈ delivered lateAnnouncement := by decide
  obtain ⟨hadd, hprovide, -, hcomplete, htraces⟩ :=
    uploads_converge (.ofNat 7) 100 "cid" "raw" lateAnnouncement earlyAnnouncement
      ⟨[], [_, _, _], rfl⟩ ⟨[_, _], [], rfl⟩ (fun s => ⟨hlate s, hearly s⟩) hcoherent
  exact ⟨hcoherent, hadd, hprovide, hcomplete, htraces, by decide, by decide⟩

end ContentProbe.Upload
