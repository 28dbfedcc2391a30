import ContentProbe.Proofs.Run.Clock
import ContentProbe.Proofs.Run.Rounds

/-!
The loop of probes under a clock. Only a probe claims the collector, and each probe gives it up again, so that
a loop which begins while nobody has claimed the collector finds it so at every probe. Hence every probe of the
loop returns by itself, and none is cut off because its turns are used up.
-/

namespace ContentProbe

open ContentProbe.Time

namespace Station

variable {σ ε : Type}

/-- A property that everything done at a station keeps. -/
structure Keeps (w : Station σ ε) (P : σ → Prop) : Prop where
  reset : ∀ s, P s → P (w.reset s).2
  waitUntil : ∀ instant s, P s → P (w.waitUntil instant s)
  upload : ∀ s, P s → P (w.upload s).2
  download : ∀ contentId s, P s → P (w.download contentId s).2
  keep : ∀ record s, P s → P (w.keep record s).2

namespace Keeps

variable {w : Station σ ε} {P : σ → Prop} (h : w.Keeps P) (run : RunInfo) {s : σ}

include h

theorem uploadOnce (hs : P s) : P (w.uploadOnce run s).2 := by
  have hprobed := h.upload s hs
  unfold Station.uploadOnce
  generalize w.upload s = result at hprobed ⊢
  obtain ⟨outcome, after⟩ := result
  rcases outcome with (⟨⟨⟩⟩ | e) | u
  · exact hprobed
  · exact hprobed
  · exact h.keep _ after hprobed

theorem downloadOnce (contentId : String) (hs : P s) : P (w.downloadOnce run contentId s).2 := by
  have hprobed := h.download contentId s hs
  unfold Station.downloadOnce
  generalize w.download contentId s = result at hprobed ⊢
  obtain ⟨outcome, after⟩ := result
  rcases outcome with (⟨⟨⟩⟩ | e) | d
  · exact hprobed
  · exact hprobed
  · exact h.keep _ after hprobed

theorem downloads (count : Nat) (rota : Rota) (hs : P s) : P (w.downloads run count rota s).2 := by
  induction count generalizing rota s with
  | zero => exact hs
  | succ count ih =>
      unfold Station.downloads
      split
      · exact hs
      · have hprobed := h.downloadOnce run rota.take.1 hs
        dsimp only
        generalize w.downloadOnce run rota.take.1 s = result at hprobed ⊢
        obtain ⟨e | x, after⟩ := result
        · exact hprobed
        · exact ih rota.take.2 hprobed

theorem probes (settings : ProbeSettings) (rota : Rota) (hs : P s) : P (w.probes settings run rota s).2 := by
  have huploaded : P (if settings.mode.uploads then w.uploadOnce run s else (.ok (), s)).2 := by
    split
    · exact h.uploadOnce run hs
    · exact hs
  unfold Station.probes
  generalize (if settings.mode.uploads then w.uploadOnce run s else (.ok (), s)) = uploaded at huploaded ⊢
  obtain ⟨e | x, after⟩ := uploaded
  · exact huploaded
  · dsimp only
    split
    · exact h.downloads run settings.downloadsPerIteration rota huploaded
    · exact huploaded

theorem rounds (settings : ProbeSettings) (count next : Nat) (rota : Rota) (hs : P s) :
    P (w.rounds settings run count next rota s).2 := by
  induction count generalizing next rota s with
  | zero => exact hs
  | succ count ih =>
      have hbegun := h.waitUntil next _ (h.reset s hs)
      have hprobed := h.probes run settings rota hbegun
      unfold Station.rounds
      dsimp only
      split
      · exact hbegun
      · generalize w.probes settings run rota _ = result at hprobed ⊢
        obtain ⟨e | rota, after⟩ := result
        · exact hprobed
        · dsimp only
          split
          · exact hprobed
          · exact ih _ rota hprobed

/-- What everything done at a station keeps, the whole loop keeps. -/
theorem runLoop (settings : ProbeSettings) (hs : P s) : P (w.runLoop settings run s).2 :=
  h.rounds run settings _ _ _ hs

omit run in
/-- If every act at a station with a property has another one, all acts have it that are recorded there. -/
theorem recorded {Q : Act ε → Prop} (hreset : ∀ s, P s → Q (.reset (w.reset s).1))
    (hbegin : ∀ instant, Q (.begin instant)) (hupload : ∀ s, P s → Q (.upload (w.upload s).1))
    (hdownload : ∀ contentId s, P s → Q (.download contentId (w.download contentId s).1))
    (hkeep : ∀ record s, P s → Q (.keep record (w.keep record s).1)) :
    w.recorded.Keeps fun x => P x.1 ∧ ∀ a ∈ x.2, Q a := by
  have hconcat {acts : List (Act ε)} (hacts : ∀ a ∈ acts, Q a) {act : Act ε} (hact : Q act) :
      ∀ a ∈ acts ++ [act], Q a :=
    List.forall_mem_append.mpr ⟨hacts, List.forall_mem_singleton.mpr hact⟩
  constructor
  · intro x hx
    exact ⟨h.reset x.1 hx.1, hconcat hx.2 (hreset x.1 hx.1)⟩
  · intro instant x hx
    exact ⟨h.waitUntil instant x.1 hx.1, hconcat hx.2 (hbegin _)⟩
  · intro x hx
    exact ⟨h.upload x.1 hx.1, hconcat hx.2 (hupload x.1 hx.1)⟩
  · intro contentId x hx
    exact ⟨h.download contentId x.1 hx.1, hconcat hx.2 (hdownload contentId x.1 hx.1)⟩
  · intro record x hx
    exact ⟨h.keep record x.1 hx.1, hconcat hx.2 (hkeep record x.1 hx.1)⟩

end Keeps

end Station

/-- Nobody has claimed the collector. -/
def Scene.IsFree {ν κ : Type} (s : Scene ν κ) : Prop := s.timeline.collector.claim = .free

namespace Outfit

variable {ν κ ε : Type} (o : Outfit ν κ ε)

/-- The outcome of an act at a station. A probe came to what was reported of it. -/
def IsReported : Act ε → Prop
  | .upload outcome => ∃ (t t' : Timeline) (trace : TraceId) (size : Nat)
      (action : Timed (Except ActionFault String)) (report : ProbeReport Upload),
      t.upload o.settings o.cancelAt trace size action noExports = (t', some report) ∧
        outcome = report.outcome.mapError .run
  | .download contentId outcome => ∃ (t t' : Timeline) (trace : TraceId) (payload : Payload)
      (report : ProbeReport Download),
      t.download o.settings o.cancelAt o.wallClock trace contentId payload noExports = (t', some report) ∧
        outcome = report.outcome.mapError .run
  | _ => True

theorem upload_reports {s : Scene ν κ} (hs : s.IsFree) :
    (o.station.upload s).2.IsFree ∧ o.IsReported (.upload (o.station.upload s).1) := by
  obtain ⟨after, report, hupload, hfree, t', trace, size, action, hreport⟩ :
      ∃ (after : Scene ν κ) (report : ProbeReport Upload), o.upload s = (report.outcome, after) ∧ after.IsFree ∧
        ∃ t' trace size action,
          s.timeline.upload o.settings o.cancelAt trace size action noExports = (t', some report) := by
    unfold Outfit.upload
    extract_lets context
    split
    rename_i action node hacted
    obtain ⟨-, -, t', report, -, hreport, hfree, -⟩ :=
      Timeline.exists_probe (UploadRun.progresses o.settings) (UploadRun.releases o.settings)
        (UploadRun.claim_start o.settings context.trace o.content.length action) hs o.cancelAt noExports
    have hupload : s.timeline.upload o.settings o.cancelAt context.trace o.content.length action noExports =
        (t', some report) := hreport
    rw [hupload]
    exact ⟨_, report, rfl, hfree, t', _, _, _, hupload⟩
  simp only [station, hupload]
  exact ⟨hfree, s.timeline, t', trace, size, action, report, hreport, rfl⟩

theorem download_reports (contentId : String) {s : Scene ν κ} (hs : s.IsFree) :
    (o.station.download contentId s).2.IsFree ∧
      o.IsReported (.download contentId (o.station.download contentId s).1) := by
  obtain ⟨after, report, hdownload, hfree, t', trace, payload, hreport⟩ :
      ∃ (after : Scene ν κ) (report : ProbeReport Download),
        o.download contentId s = (report.outcome, after) ∧ after.IsFree ∧
        ∃ t' trace payload, s.timeline.download o.settings o.cancelAt o.wallClock trace contentId payload noExports =
          (t', some report) := by
    unfold Outfit.download
    extract_lets context
    split
    rename_i payload node hfetched
    obtain ⟨-, -, t', report, -, hreport, hfree, -⟩ :=
      Timeline.exists_probe (DownloadRun.progresses o.settings) (DownloadRun.releases o.settings)
        (DownloadRun.claim_start o.settings o.wallClock context.trace contentId payload) hs o.cancelAt noExports
    have hdownload : s.timeline.download o.settings o.cancelAt o.wallClock context.trace contentId payload
        noExports = (t', some report) := hreport
    rw [hdownload]
    exact ⟨_, report, rfl, hfree, t', _, _, hdownload⟩
  simp only [station, hdownload]
  exact ⟨hfree, s.timeline, t', trace, payload, report, hreport, rfl⟩

theorem isFree_waitUntil (instant : Nat) {s : Scene ν κ} (hs : s.IsFree) :
    (o.station.waitUntil instant s).IsFree := by
  have hwait : o.station.waitUntil = fun instant s =>
      { s with timeline := s.timeline.sleep (instant - s.timeline.now) } := rfl
  rw [hwait]
  exact (Timeline.claim_sleep ..).trans hs

theorem timeline_keep (record : Record) (s : Scene ν κ) :
    (o.station.keep record s).2.timeline = s.timeline := by
  unfold station
  dsimp only
  split <;> rfl

theorem keeps_isFree : o.station.Keeps Scene.IsFree where
  reset _ hs := hs
  waitUntil instant _ hs := o.isFree_waitUntil instant hs
  upload _ hs := (o.upload_reports hs).1
  download contentId _ hs := (o.download_reports contentId hs).1
  keep record s hs := by
    unfold Scene.IsFree
    rw [o.timeline_keep record s]
    exact hs

/-- Whatever a loop does that begins while nobody has claimed the collector, each of its probes returns, and at
the end nobody has claimed it either. -/
theorem loop_reports (settings : ProbeSettings) (run : RunInfo) {s : Scene ν κ} (hs : s.IsFree) :
    let result := o.station.recorded.runLoop settings run (s, [])
    result.2.1.IsFree ∧ ∀ a ∈ result.2.2, o.IsReported a := by
  have hkeeps : o.station.recorded.Keeps fun x => x.1.IsFree ∧ ∀ a ∈ x.2, o.IsReported a :=
    o.keeps_isFree.recorded (fun _ _ => trivial) (fun _ => trivial) (fun _ hs => (o.upload_reports hs).2)
      (fun contentId _ hs => (o.download_reports contentId hs).2) (fun _ _ _ => trivial)
  exact hkeeps.runLoop run settings ⟨hs, by simp⟩

end Outfit

end ContentProbe
