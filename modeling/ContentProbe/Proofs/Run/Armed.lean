import ContentProbe.Proofs.Collector.Ownership
import ContentProbe.Proofs.Collector.Steps
import ContentProbe.Proofs.Download.Filtering
import ContentProbe.Proofs.Run.Turns
import ContentProbe.Proofs.Upload.Filtering

/-!
What a run has armed while it goes on. Its session is the only one, and the registry holds the matchers of
the run from the moment at which it has armed them: those for any announcement first, and those for the raw
key once the upload has learned it. They look at reports, so that they cannot overlook a span which the
measurement would count: no scan in between leaves a batch with such a span unmatched.
-/

namespace ContentProbe

open ContentProbe.Time

/-- A scan of the batch gives a match for the session. -/
def Registry.Catches (r : Registry) (session : Nat) (b : Wire.Batch) : Prop :=
  ∃ index, r.scan b = .matched index session

theorem Registry.catches_of_holds {session : Nat} {matchers : List Matcher} {b : Wire.Batch}
    {w : Wire.Span} (hw : w ∈ b.spans) {m : Matcher} (hm : m ∈ matchers) (h : m.holds w = true) :
    Catches ⟨session, matchers⟩ session b := by
  cases hhit : Matcher.firstHit? matchers b with
  | none => simp [Matcher.firstHit?_eq_none_iff.mp hhit w hw m hm] at h
  | some index => exact ⟨index, Sessions.scan_eq_matched_iff.mpr ⟨List.ne_nil_of_mem hm, hhit, rfl⟩⟩

/-- A matcher that a well-formed span meets holds of the span as it was reported. -/
theorem Registry.catches_of_meets {session : Nat} {matchers : List Matcher} {b : Wire.Batch} {x : Span}
    (hx : x ∈ Span.ofBatch b) {m : Matcher} (hm : m ∈ matchers) (h : m.meets x = true) :
    Catches ⟨session, matchers⟩ session b := by
  obtain ⟨w, hw, hok⟩ := Span.mem_ofBatch.mp hx
  exact catches_of_holds hw hm (Matcher.holds_of_meets hok h)

/-! Sessions beside a run -/

namespace Sessions

/-- The sessions after one of them has used its handle, which led to a collector. -/
def told (s : Sessions) (session : Nat) (c : Collector) : Sessions :=
  { s with
    collector := c
    live := s.live.map fun h =>
      if h.session = session then { h with registered := c.registry.matchers } else h }

/-- The session is the only live one and has not begun to end. -/
structure HeldBy (s : Sessions) (session : Nat) (registered : List Matcher) : Prop where
  orderly : s.Orderly
  live : s.live = [⟨session, false, registered⟩]

/-- The session has these matchers in the registry. -/
structure Armed (s : Sessions) (session : Nat) (matchers : List Matcher) : Prop
    extends HeldBy s session matchers where
  registry : s.collector.registry = ⟨session, matchers⟩

theorem HeldBy.claim {s : Sessions} {session : Nat} {registered : List Matcher}
    (hs : s.HeldBy session registered) : s.collector.claim = .held session :=
  hs.orderly.held_of_open (h := ⟨session, false, registered⟩) (by simp [hs.live]) rfl

theorem HeldBy.told {s : Sessions} {session : Nat} {registered matchers : List Matcher} {c : Collector}
    (hs : s.HeldBy session registered) (hregistry : c.registry = ⟨session, matchers⟩)
    (hclaim : c.claim = s.collector.claim) (hsessions : c.sessions = s.collector.sessions) :
    (s.told session c).Armed session matchers := by
  have hlive : (s.told session c).live = [⟨session, false, matchers⟩] := by
    simp [Sessions.told, hs.live, hregistry]
  have hfits : Fits (s.told session c).collector (s.told session c).live := by
    refine Or.inr ⟨_, hlive, hclaim.trans hs.claim, ?_, fun _ => ⟨rfl, ?_⟩⟩
    · exact congrArg Registry.matchers hregistry
    · exact congrArg Registry.session hregistry
  refine ⟨⟨⟨hs.orderly.numbered, ?_, ?_, hfits⟩, hlive⟩, hregistry⟩
  · simpa only [Sessions.told, hsessions] using hs.orderly.counted
  · intro h hh
    rw [hlive, List.mem_singleton] at hh
    rw [hh]
    exact hs.orderly.known ⟨session, false, registered⟩ (by simp [hs.live])

/-- What others do leaves the registry alone. -/
theorem Armed.others {s s' : Sessions} {session : Nat} {matchers : List Matcher} {actor : Option Nat}
    (hs : s.Armed session matchers) (h : Step actor s s') (hactor : actor ≠ some session) :
    s'.Armed session matchers := by
  have horderly := hs.orderly.step h
  have hown {c : Collector} {older newer : List Handle} {h : Handle} {begun : List Nat}
      (hs : Armed ⟨c, older ++ h :: newer, begun⟩ session matchers) : h.session = session := by
    obtain ⟨-, rfl, -⟩ := eq_of_append_cons_eq_singleton hs.live
    rfl
  cases h with
  | acquire h =>
      obtain ⟨hfree, -, -⟩ := acquire_eq_some_iff.mp h
      rw [hs.claim] at hfree
      cases hfree
  | register matchers hopen => exact absurd (congrArg some (hown hs)) hactor
  | reset hopen => exact absurd (congrArg some (hown hs)) hactor
  | retire hopen => exact absurd (congrArg some (hown hs)) hactor
  | release hending => exact absurd (congrArg some (hown hs)) hactor
  | traffic h => exact ⟨⟨horderly, hs.live⟩, h.frame.1.trans hs.registry⟩

/-- A session that begins is the only one. -/
theorem Orderly.heldBy_acquire {s : Sessions} (hs : s.Orderly) {session : Nat} {after : Collector}
    (h : s.collector.acquire = some (session, after)) :
    HeldBy ⟨after, s.live ++ [⟨session, false, []⟩], s.begun ++ [session]⟩ session [] := by
  obtain ⟨hfree, -, -⟩ := acquire_eq_some_iff.mp h
  obtain ⟨hnone, -⟩ := hs.fits.live_eq_nil_of_free hfree
  exact ⟨hs.step (.acquire h), by simp [hnone]⟩

end Sessions

/-- The sessions at a collector and the run of one of them, from the moment at which the run has armed its
matchers to that at which it finishes. Between its turns others do what they can. -/
inductive Underway {σ α : Type} (session : Nat) (arm : Collector → Collector × σ)
    (turn : Moment → Collector → σ → RunTurn σ α) : Sessions → σ → Prop where
  | arm {s : Sessions} {after : Collector} (hs : s.Reachable)
      (h : s.collector.acquire = some (session, after)) :
      Underway session arm turn
        (Sessions.told ⟨after, s.live ++ [⟨session, false, []⟩], s.begun ++ [session]⟩ session
          (arm after).1)
        (arm after).2
  | turn {s : Sessions} {r r' : σ} {c : Collector} (m : Moment) (hs : Underway session arm turn s r)
      (h : turn m s.collector r = .next c r') : Underway session arm turn (s.told session c) r'
  | others {s s' : Sessions} {r : σ} {actor : Option Nat} (hs : Underway session arm turn s r)
      (h : Sessions.Step actor s s') (hactor : actor ≠ some session) : Underway session arm turn s' r

/-- A run keeps its matchers in the registry if they are there once it has begun, and each turn replaces
them when the matchers of the run change. -/
theorem Underway.armed {σ α : Type} {session : Nat} {arm : Collector → Collector × σ}
    {turn : Moment → Collector → σ → RunTurn σ α} (Good : σ → Prop) (matchers : σ → List Matcher)
    (hbegin : ∀ c, Good (arm c).2 ∧ (arm c).1 = c.register (matchers (arm c).2))
    (hturn : ∀ m c r c' r', Good r → turn m c r = .next c' r' → Good r' ∧
      c'.claim = c.claim ∧ c'.sessions = c.sessions ∧
      (c.claim = .held session → c.registry = ⟨session, matchers r⟩ →
        c'.registry = ⟨session, matchers r'⟩))
    {s : Sessions} {r : σ} (h : Underway session arm turn s r) :
    Good r ∧ s.Armed session (matchers r) := by
  induction h with
  | @arm s after hs h =>
      obtain ⟨hgood, harm⟩ := hbegin after
      have hheld := hs.orderly.heldBy_acquire h
      have hregister : after.register (matchers (arm after).2) =
          after.registerFor session (matchers (arm after).2) := by
        rw [Collector.register, hheld.claim]
      refine ⟨hgood, hheld.told ?_ ?_ ?_⟩
      · rw [harm, hregister]
        rfl
      · rw [harm, hregister]
        rfl
      · rw [harm, hregister]
        rfl
  | turn m _ h ih =>
      obtain ⟨hgood, harmed⟩ := ih
      obtain ⟨hgood', hclaim, hsessions, hregistry⟩ := hturn m _ _ _ _ hgood h
      exact ⟨hgood', harmed.told (hregistry harmed.claim harmed.registry) hclaim hsessions⟩
  | others _ h hactor ih => exact ⟨ih.1, ih.2.others h hactor⟩

/-- Taking a match changes neither the registry nor the claim. -/
theorem Collector.receive_frame {c after : Collector}
    (h : (∃ d, c.receive = .own d after) ∨ c.receive = .foreign after) :
    after.registry = c.registry ∧ after.claim = c.claim ∧ after.sessions = c.sessions := by
  rcases h with ⟨d, h⟩ | h
  · exact (Sessions.Traffic.take (receive_eq_own_iff.mp h).1).frame
  · obtain ⟨d, htake, -⟩ := receive_eq_foreign_iff.mp h
    exact (Sessions.Traffic.take htake).frame

/-! Downloads -/

namespace DownloadRun

/-- No turn touches the matchers. -/
theorem turn_frame {s : RunSettings} {m : Moment} {c c' : Collector} {r r' : DownloadRun}
    (h : turn s m c r = .next c' r') :
    c'.registry = c.registry ∧ c'.claim = c.claim ∧ c'.sessions = c.sessions := by
  rcases next_cases h with ⟨t, -, -, -, rfl, -⟩ | ⟨d, hreceive, -⟩ | ⟨hreceive, -⟩
  · exact ⟨rfl, rfl, rfl⟩
  · exact Collector.receive_frame (Or.inl ⟨d, hreceive⟩)
  · exact Collector.receive_frame (Or.inr hreceive)

variable {settings : RunSettings} {session now wallClock : Nat} {trace : TraceId} {contentId : String}
  {payload : Payload}

theorem armed_of_underway {s : Sessions} {r : DownloadRun}
    (h : Underway session (start settings now wallClock trace contentId payload) (turn settings) s r) :
    s.Armed session (armed trace) :=
  (h.armed (fun _ => True) (fun _ => armed trace) (fun _ => ⟨trivial, rfl⟩)
    fun m c r c' r' _ hturn => by
      obtain ⟨hregistry, hclaim, hsessions⟩ := turn_frame hturn
      exact ⟨trivial, hclaim, hsessions, fun _ hown => hregistry.trans hown⟩).2

theorem catches_of_underway {s : Sessions} {r : DownloadRun}
    (h : Underway session (start settings now wallClock trace contentId payload) (turn settings) s r)
    {b : Wire.Batch} {x : Span} (hx : x ∈ Span.ofBatch b)
    (hcounts : x.trace = trace ∨ Download.isAnchor contentId x = true) :
    s.collector.registry.Catches session b := by
  rw [(armed_of_underway h).registry]
  rcases hcounts with htrace | hanchor
  · exact Registry.catches_of_meets hx (m := .traceId trace) (by simp [armed])
      (by simpa [Matcher.meets] using htrace)
  · exact Registry.catches_of_meets hx (by simp [armed]) (Download.meets_of_isAnchor contentId hanchor)

/-- A query to an index is caught even if it is malformed. -/
theorem catches_query_of_underway {s : Sessions} {r : DownloadRun}
    (h : Underway session (start settings now wallClock trace contentId payload) (turn settings) s r)
    {b : Wire.Batch} {w : Wire.Span} (hw : w ∈ b.spans) (hquery : w.name = Names.indexQuery) :
    s.collector.registry.Catches session b := by
  rw [(armed_of_underway h).registry]
  exact Registry.catches_of_holds hw (m := .name Names.indexQuery) (by simp [armed])
    (by simpa [Matcher.holds] using hquery)

end DownloadRun

/-! Uploads -/

namespace UploadRun

/-- The matchers of a run: for any announcement, and for the raw key once it is known. -/
def matchers (r : UploadRun) : List Matcher :=
  match r.upload.published with
  | none => armed r.upload.addTrace
  | some p => rearmed r.upload.addTrace p.rawKey

/-- The upload under way is that of a trace, and takes in batches. -/
structure Takes (trace : TraceId) (r : UploadRun) : Prop where
  addTrace : r.upload.addTrace = trace
  active : r.upload.frozen = false

theorem matchers_withMatch (d : Delivery) (r : UploadRun) : (r.withMatch d).matchers = r.matchers := by
  have htrace : (r.withMatch d).upload.addTrace = r.upload.addTrace :=
    Upload.addTrace_step r.upload (.ingest d.batch)
  have hpublished : (r.withMatch d).upload.published = r.upload.published :=
    Upload.published_ingest r.upload d.batch
  rw [matchers, matchers, htrace, hpublished]

theorem Takes.step {trace : TraceId} {r r' : UploadRun} (h : r.Takes trace) (op : Upload.Op)
    (hop : op ≠ .freeze) (hr' : r'.upload = r.upload.step op) : r'.Takes trace := by
  constructor
  · rw [hr', Upload.addTrace_step, h.addTrace]
  · rw [hr', Upload.frozen_step hop, h.active]

/-- The end of the action replaces the matchers if it tells a content id, and leaves them otherwise. -/
theorem settle_next {trace : TraceId} {drain now session : Nat} {outcome : Except ActionFault String}
    {c c' : Collector} {r r' : UploadRun} (hr : r.Takes trace)
    (h : settle drain now outcome c r = .next c' r') :
    r'.Takes trace ∧ c'.claim = c.claim ∧ c'.sessions = c.sessions ∧
      (c.claim = .held session → c.registry = ⟨session, r.matchers⟩ →
        c'.registry = ⟨session, r'.matchers⟩) := by
  unfold settle at h
  simp only at h
  split at h
  · rename_i p hp
    obtain ⟨-, rfl, rfl⟩ := proceed_eq_next_iff.mp h
    have htakes : Takes trace { r with
        action := none, deadline := now + drain, upload := r.upload.publish p.contentId p.rawKey } :=
      hr.step (.publish p.contentId p.rawKey) (by simp) rfl
    have hpublished : (r.upload.publish p.contentId p.rawKey).published = some p := by
      rw [Upload.published_publish, hr.active]
      rfl
    refine ⟨htakes, ?_, ?_, fun hclaim _ => ?_⟩
    · unfold Collector.register
      split <;> rfl
    · unfold Collector.register
      split <;> rfl
    · have htrace : (r.upload.publish p.contentId p.rawKey).addTrace = r.upload.addTrace :=
        htakes.addTrace.trans hr.addTrace.symm
      simp only [matchers, hpublished, htrace, Collector.register, hclaim, Collector.registerFor]
  · obtain ⟨-, rfl, rfl⟩ := proceed_eq_next_iff.mp h
    exact ⟨⟨hr.addTrace, hr.active⟩, rfl, rfl, fun _ hregistry => hregistry⟩

/-- The turn in which an upload learns its content id, unless it is complete then. -/
theorem turn_of_learned {settings : RunSettings} {m : Moment} {c : Collector} {r : UploadRun}
    {a : Timed (Except ActionFault String)} {p : Published} (hm : m.cancelled = false)
    (ha : r.action = some a) (hdue : a.after ≤ m.now) (hp : (a.value >>= keyOf) = .ok p)
    (hincomplete : (r.upload.publish p.contentId p.rawKey).isComplete = false) :
    turn settings m c r = .next (c.register (rearmed r.upload.addTrace p.rawKey))
      { action := none, deadline := m.now + settings.uploadDrain,
        upload := r.upload.publish p.contentId p.rawKey } := by
  simp [turn, hm, ha, hdue, settle, hp, proceed, hincomplete]

theorem turn_next {settings : RunSettings} {trace : TraceId} {session : Nat} {m : Moment}
    {c c' : Collector} {r r' : UploadRun} (hr : r.Takes trace)
    (h : turn settings m c r = .next c' r') :
    r'.Takes trace ∧ c'.claim = c.claim ∧ c'.sessions = c.sessions ∧
      (c.claim = .held session → c.registry = ⟨session, r.matchers⟩ →
        c'.registry = ⟨session, r'.matchers⟩) := by
  rcases next_cases h with ⟨a, -, -, -, hsettle⟩ | ⟨d, hreceive, -, -, rfl⟩ | ⟨hreceive, -, -, rfl⟩
  · exact settle_next hr hsettle
  · obtain ⟨hregistry, hclaim, hsessions⟩ := Collector.receive_frame (Or.inl ⟨d, hreceive⟩)
    refine ⟨hr.step (.ingest d.batch) (by simp) rfl, hclaim, hsessions, fun _ hown => ?_⟩
    rw [matchers_withMatch, hregistry, hown]
  · obtain ⟨hregistry, hclaim, hsessions⟩ := Collector.receive_frame (Or.inr hreceive)
    exact ⟨hr, hclaim, hsessions, fun _ hown => hregistry.trans hown⟩

variable {settings : RunSettings} {session now size : Nat} {trace : TraceId}
  {action : Timed (Except ActionFault String)}

theorem armed_of_underway {s : Sessions} {r : UploadRun}
    (h : Underway session (start settings now trace size action) (turn settings) s r) :
    r.Takes trace ∧ s.Armed session r.matchers :=
  h.armed (Takes trace) matchers (fun _ => ⟨⟨rfl, rfl⟩, rfl⟩) fun _ _ _ _ _ hr hturn => turn_next hr hturn

/-- Whichever of its two lists a run has armed, what counts for a raw key meets it. -/
theorem catches_rearmed {rawKey : String} {b : Wire.Batch} {x : Span} (hx : x ∈ Span.ofBatch b)
    (hcounts : x.trace = trace ∨ Upload.isAnchor rawKey x = true) :
    Registry.Catches ⟨session, rearmed trace rawKey⟩ session b := by
  rcases hcounts with htrace | hanchor
  · exact Registry.catches_of_meets hx (m := .traceId trace) (by simp [rearmed])
      (by simpa [Matcher.meets] using htrace)
  · exact Registry.catches_of_meets hx (by simp [rearmed]) (Upload.meets_of_isAnchor rawKey hanchor)

theorem catches_armed {rawKey : String} {b : Wire.Batch} {x : Span} (hx : x ∈ Span.ofBatch b)
    (hcounts : x.trace = trace ∨ Upload.isAnchor rawKey x = true) :
    Registry.Catches ⟨session, armed trace⟩ session b := by
  rcases hcounts with htrace | hanchor
  · exact Registry.catches_of_meets hx (m := .traceId trace) (by simp [armed])
      (by simpa [Matcher.meets] using htrace)
  · have hname : x.name = Names.provide := by
      rw [Upload.isAnchor, Bool.and_eq_true] at hanchor
      exact beq_iff_eq.mp hanchor.1
    exact Registry.catches_of_meets hx (m := .name Names.provide) (by simp [armed])
      (by simpa [Matcher.meets] using hname)

theorem catches_of_underway {s : Sessions} {r : UploadRun}
    (h : Underway session (start settings now trace size action) (turn settings) s r) {rawKey : String}
    (hkey : ∀ p ∈ r.upload.published, p.rawKey = rawKey) {b : Wire.Batch} {x : Span}
    (hx : x ∈ Span.ofBatch b) (hcounts : x.trace = trace ∨ Upload.isAnchor rawKey x = true) :
    s.collector.registry.Catches session b := by
  obtain ⟨htakes, harmed⟩ := armed_of_underway h
  rw [harmed.registry, matchers, htakes.addTrace]
  cases hpublished : r.upload.published with
  | none => exact catches_armed hx hcounts
  | some p =>
      have hraw : p.rawKey = rawKey := hkey p hpublished
      simp only [hraw]
      exact catches_rearmed hx hcounts

/-- The action has ended, and the new matchers are registered before the upload learns its content id. -/
theorem catches_of_register {s : Sessions} {r : UploadRun}
    (h : Underway session (start settings now trace size action) (turn settings) s r) {rawKey : String}
    {b : Wire.Batch} {x : Span} (hx : x ∈ Span.ofBatch b)
    (hcounts : x.trace = trace ∨ Upload.isAnchor rawKey x = true) :
    (s.collector.register (rearmed r.upload.addTrace rawKey)).registry.Catches session b := by
  obtain ⟨htakes, harmed⟩ := armed_of_underway h
  simp only [Collector.register, harmed.claim, Collector.registerFor, htakes.addTrace]
  exact catches_rearmed hx hcounts

end UploadRun

/-- While a run goes on, whatever others do, no scan overlooks what its measurement would count. An upload
catches the trace of its request and every announcement of its raw key: of any key as long as none is known,
and of the key that the action told, as soon as the matchers for it are registered. A download catches the
trace of its request, every search for its content and every query to an index. -/
theorem anchors_caught (settings : RunSettings) (session now wallClock size : Nat) (trace : TraceId)
    (contentId : String) (action : Timed (Except ActionFault String)) (payload : Payload) (s : Sessions)
    (b : Wire.Batch) :
    (∀ r, Underway session (UploadRun.start settings now trace size action) (UploadRun.turn settings) s r →
      (∀ rawKey, (∀ p ∈ r.upload.published, p.rawKey = rawKey) →
        (∃ x ∈ Span.ofBatch b, x.trace = trace ∨ Upload.isAnchor rawKey x = true) →
        s.collector.registry.Catches session b) ∧
      (∀ a ∈ r.action, ∀ p, (a.value >>= keyOf) = .ok p →
        (∃ x ∈ Span.ofBatch b, x.trace = trace ∨ Upload.isAnchor p.rawKey x = true) →
        (s.collector.register (UploadRun.rearmed r.upload.addTrace p.rawKey)).registry.Catches session b)) ∧
    (∀ r, Underway session (DownloadRun.start settings now wallClock trace contentId payload)
        (DownloadRun.turn settings) s r →
      (∃ x ∈ Span.ofBatch b, x.trace = trace ∨ Download.isAnchor contentId x = true) ∨
        (∃ w ∈ b.spans, w.name = Names.indexQuery) →
      s.collector.registry.Catches session b) := by
  refine ⟨fun r h => ⟨?_, ?_⟩, fun r h hcounts => ?_⟩
  · rintro rawKey hkey ⟨x, hx, hcounts⟩
    exact UploadRun.catches_of_underway h hkey hx hcounts
  · rintro a - p - ⟨x, hx, hcounts⟩
    exact UploadRun.catches_of_register h hx hcounts
  · rcases hcounts with ⟨x, hx, hcounts⟩ | ⟨w, hw, hquery⟩
    · exact DownloadRun.catches_of_underway h hx hcounts
    · exact DownloadRun.catches_query_of_underway h hw hquery

/-! A run of each kind -/

/-- A batch that announces the raw key of empty content. -/
def announcement : Wire.Batch :=
  .ofSpans [.ofNumbers 9 1 Names.provide 20 30 [⟨Names.provideKey, some (.string "bafkqaaa")⟩] []]

/-- A query to an index, with ids that are not well-formed. -/
def malformedQuery : Wire.Batch :=
  .ofSpans [{ Wire.Span.ofNumbers 0 0 Names.indexQuery 30 40 [] [] with traceId := [], spanId := [] }]

theorem keyOf_empty : keyOf "f01550000" = .ok ⟨"f01550000", "bafkqaaa"⟩ := by
  have hkey : (ContentId.rawKey "f01550000").toOption = some "bafkqaaa" := by decide +kernel
  unfold keyOf
  cases hraw : ContentId.rawKey "f01550000" with
  | error fault => simp [hraw, Except.toOption] at hkey
  | ok rawKey =>
      obtain rfl : rawKey = "bafkqaaa" := by simpa [hraw, Except.toOption] using hkey
      rfl

abbrev EmptyUpload : Sessions → UploadRun → Prop :=
  Underway 1 (UploadRun.start shortRuns 0 (.ofNat 7) 0 ⟨0, .ok "f01550000"⟩) (UploadRun.turn shortRuns)

abbrev EmptyDownload : Sessions → DownloadRun → Prop :=
  Underway 1 (DownloadRun.start shortRuns 0 0 (.ofNat 7) "f01550000" ⟨⟨0, .ok []⟩⟩)
    (DownloadRun.turn shortRuns)

/-- An upload that has armed its matchers, and the same one once it has learned its content id. -/
theorem exists_emptyUpload :
    ∃ s r s' r',
      EmptyUpload s r ∧ r.action = some ⟨0, .ok "f01550000"⟩ ∧ r.upload.published = none ∧
      EmptyUpload s' r' ∧ r'.upload.published = some ⟨"f01550000", "bafkqaaa"⟩ := by
  have harmed : EmptyUpload _ _ := .arm (.start 8 100 none) rfl
  have hincomplete : ((Upload.start (.ofNat 7) 0).publish "f01550000" "bafkqaaa").isComplete = false := by
    decide
  have hlearned := harmed.turn ⟨0, false, true⟩
    (UploadRun.turn_of_learned rfl rfl (Nat.le_refl 0) keyOf_empty hincomplete)
  refine ⟨_, _, _, _, harmed, rfl, rfl, hlearned, ?_⟩
  rw [Upload.published_publish]
  rfl

/-- The announcement is caught before and after the upload has learned its content id, and while it is about
to, and a download catches a query that it could not read. -/
theorem announcement_caught :
    (∃ s r s' r', EmptyUpload s r ∧ s.collector.registry.Catches 1 announcement ∧
      (s.collector.register
        (UploadRun.rearmed r.upload.addTrace "bafkqaaa")).registry.Catches 1 announcement ∧
      EmptyUpload s' r' ∧ r'.upload.published = some ⟨"f01550000", "bafkqaaa"⟩ ∧
      s'.collector.registry.Catches 1 announcement) ∧
    ∃ s r, EmptyDownload s r ∧ s.collector.registry.Catches 1 malformedQuery := by
  have hcounts : ∃ x ∈ Span.ofBatch announcement,
      x.trace = .ofNat 7 ∨ Upload.isAnchor "bafkqaaa" x = true := by
    decide
  have hquery : ∃ w ∈ malformedQuery.spans, w.name = Names.indexQuery := by decide
  have hsearch : EmptyDownload _ _ := .arm (.start 8 100 none) rfl
  obtain ⟨s, r, s', r', harmed, haction, hnone, hlearned, hpublished⟩ := exists_emptyUpload
  obtain ⟨hbefore, hduring⟩ :=
    (anchors_caught _ _ _ 0 _ _ "" _ ⟨⟨0, .ok []⟩⟩ s announcement).1 r harmed
  obtain ⟨hafter, -⟩ :=
    (anchors_caught _ _ _ 0 _ _ "" _ ⟨⟨0, .ok []⟩⟩ s' announcement).1 r' hlearned
  refine ⟨⟨s, r, s', r', harmed, ?_, ?_, hlearned, hpublished, ?_⟩, _, _, hsearch, ?_⟩
  · exact hbefore "bafkqaaa" (by simp [hnone]) hcounts
  · exact hduring _ haction _ keyOf_empty hcounts
  · exact hafter "bafkqaaa" (by simp [hpublished]) hcounts
  · exact (anchors_caught _ _ _ _ 0 _ _ ⟨0, .ok ""⟩ _ _ malformedQuery).2 _ hsearch (Or.inr hquery)

end ContentProbe
