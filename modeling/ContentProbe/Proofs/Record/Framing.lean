import ContentProbe.Proofs.Record.Directory
import ContentProbe.Proofs.Record.Location
import ContentProbe.Proofs.Record.RoundTrip

/-!
What the files of a ledger hold after any records were written, through any of the sinks that were opened for
it and in any order of openings and writes. A write puts one line at the end of one of the two files, and
opening a ledger changes no text, so each file grows by the lines of its records in the order in which they
were written. No line holds a line break, and each of them is read back as its record.
-/

namespace ContentProbe

namespace Directory

/-- Opening a ledger again gives the same sink, and only creates files that are missing. -/
theorem openLedger_eq {d : Directory} {stem uploads downloads : String}
    (huploads : d.trail.locate (Sink.uploadsName stem) = .ok uploads)
    (hdownloads : d.trail.locate (Sink.downloadsName stem) = .ok downloads) :
    d.openLedger stem = .ok (.ledger uploads downloads, (d.touch uploads).touch downloads) := by
  rw [openLedger, huploads, hdownloads]
  rfl

theorem locate_of_openLedger {d d' : Directory} {stem : String} {s : Sink}
    (h : d.openLedger stem = .ok (s, d')) :
    ∃ uploads downloads, d.trail.locate (Sink.uploadsName stem) = .ok uploads ∧
      d.trail.locate (Sink.downloadsName stem) = .ok downloads := by
  cases huploads : d.trail.locate (Sink.uploadsName stem) with
  | error fault =>
      rw [openLedger, huploads] at h
      cases h
  | ok uploads =>
      cases hdownloads : d.trail.locate (Sink.downloadsName stem) with
      | error fault =>
          rw [openLedger, huploads, hdownloads] at h
          cases h
      | ok downloads => exact ⟨uploads, downloads, rfl, rfl⟩

end Directory

/-! Lines -/

/-- What records are written as, one behind the other. -/
def framed {α : Type} (encode : α → String) (rs : List α) : String :=
  String.join (rs.map fun r => encode r ++ "\n")

/-- The lines of a text, each of which ends with a line break. -/
def lines (text : String) : List String := (text.toList.splitOn '\n').dropLast.map String.ofList

theorem framed_append {α : Type} (encode : α → String) (rs : List α) (r : α) :
    framed encode (rs ++ [r]) = framed encode rs ++ (encode r ++ "\n") := by
  simp [framed]

theorem lines_framed {α : Type} {encode : α → String} (hencode : ∀ r, '\n' ∉ (encode r).toList)
    (rs : List α) : lines (framed encode rs) = rs.map encode := by
  induction rs with
  | nil => rfl
  | cons r rs ih =>
      have htext : (framed encode (r :: rs)).toList =
          (encode r).toList ++ '\n' :: (framed encode rs).toList := by
        simp [framed]
      rw [lines, htext, List.splitOn_append_cons_self_of_not_mem (hencode r),
        List.dropLast_cons_of_ne_nil (List.splitOn_ne_nil _ _), List.map_cons, List.map_cons,
        String.ofList_toList]
      exact congrArg _ ih

/-- A file holds what it held, and behind it one line for each record, which is read back as the record. -/
structure Kept {α : Type} (encode : α → String) (decode? : String → Option α) (untimed : α → α)
    (before after : Option String) (rs : List α) : Prop where
  text : after = some (before.getD "" ++ framed encode rs)
  lines : lines (framed encode rs) = rs.map encode
  unbroken : ∀ line ∈ rs.map encode, '\n' ∉ line.toList
  readBack : ∃ rs', (ContentProbe.lines (framed encode rs)).mapM decode? = some rs' ∧
    rs'.map untimed = rs.map untimed

theorem mapM_decode? {α : Type} {encode : α → String} {decode? : String → Option α} {untimed : α → α}
    {rs : List α} (hread : ∀ r ∈ rs, ∃ r', decode? (encode r) = some r' ∧ untimed r' = untimed r) :
    ∃ rs', (rs.map encode).mapM decode? = some rs' ∧ rs'.map untimed = rs.map untimed := by
  induction rs with
  | nil => exact ⟨[], rfl, rfl⟩
  | cons r rs ih =>
      obtain ⟨r', hr', huntimed⟩ := hread r List.mem_cons_self
      obtain ⟨rs', hrs', hrest⟩ := ih fun s hs => hread s (List.mem_cons_of_mem r hs)
      refine ⟨r' :: rs', ?_, by rw [List.map_cons, List.map_cons, huntimed, hrest]⟩
      rw [List.map_cons, List.mapM_cons, hr', hrs']
      rfl

theorem Kept.of_text {α : Type} {encode : α → String} {decode? : String → Option α} {untimed : α → α}
    {before after : Option String} {rs : List α} (hencode : ∀ r, '\n' ∉ (encode r).toList)
    (hread : ∀ r ∈ rs, ∃ r', decode? (encode r) = some r' ∧ untimed r' = untimed r)
    (htext : after = some (before.getD "" ++ framed encode rs)) :
    Kept encode decode? untimed before after rs := by
  refine ⟨htext, lines_framed hencode rs, fun line hline => ?_, ?_⟩
  · obtain ⟨r, -, rfl⟩ := List.mem_map.mp hline
    exact hencode r
  · rw [lines_framed hencode]
    exact mapM_decode? hread

/-! Histories -/

def Record.upload? : Record → Option UploadRecord
  | .upload r => some r
  | .download _ => none

def Record.download? : Record → Option DownloadRecord
  | .upload _ => none
  | .download r => some r

def Record.Writable : Record → Prop
  | .upload r => r.Writable
  | .download r => r.Writable

/-- What becomes of a directory in which ledgers of one stem are opened and records written, through any of
the sinks that were opened before. -/
inductive History (stem : String) (start : Directory) : List Sink → List Record → Directory → Prop
  | start : History stem start [] [] start
  | opened {sinks : List Sink} {rs : List Record} {d d' : Directory} {s : Sink}
      (h : History stem start sinks rs d) (hopen : d.openLedger stem = .ok (s, d')) :
      History stem start (sinks ++ [s]) rs d'
  | wrote {sinks : List Sink} {rs : List Record} {d : Directory} {s : Sink}
      (h : History stem start sinks rs d) (hs : s ∈ sinks) (r : Record) :
      History stem start sinks (rs ++ [r]) (s.write d r)

namespace History

/-- How a history leaves a directory: its texts have grown by the lines of the records, and the files of an
opened ledger are there. -/
structure Grown (before d : Directory) (uploads downloads : String) (sinks : List Sink) (rs : List Record) :
    Prop where
  trail : d.trail = before.trail
  same : ∀ s ∈ sinks, s = .ledger uploads downloads
  there : sinks ≠ [] → (d.text? uploads).isSome = true ∧ (d.text? downloads).isSome = true
  uploaded : (d.text? uploads).getD "" =
    (before.text? uploads).getD "" ++ framed UploadRecord.encode (rs.filterMap Record.upload?)
  downloaded : (d.text? downloads).getD "" =
    (before.text? downloads).getD "" ++ framed DownloadRecord.encode (rs.filterMap Record.download?)

variable {before d d' : Directory} {uploads downloads stem : String} {sinks : List Sink} {rs : List Record}

theorem Grown.start (d : Directory) (uploads downloads : String) : Grown d d uploads downloads [] [] where
  trail := rfl
  same := nofun
  there := fun h => absurd rfl h
  uploaded := String.append_empty.symm
  downloaded := String.append_empty.symm

theorem Grown.opened (h : Grown before d uploads downloads sinks rs) :
    Grown before ((d.touch uploads).touch downloads) uploads downloads
      (sinks ++ [.ledger uploads downloads]) rs where
  trail := by rw [Directory.touch_trail, Directory.touch_trail, h.trail]
  same := by simpa [or_imp, forall_and] using h.same
  there _ := by simp [Directory.text?_touch, apply_ite]
  uploaded := by rw [Directory.getD_touch, Directory.getD_touch, h.uploaded]
  downloaded := by rw [Directory.getD_touch, Directory.getD_touch, h.downloaded]

theorem Grown.wrote (h : Grown before d uploads downloads sinks rs) (hne : uploads ≠ downloads) {s : Sink}
    (hs : s ∈ sinks) (r : Record) : Grown before (s.write d r) uploads downloads sinks (rs ++ [r]) := by
  obtain ⟨hup, hdown⟩ := h.there (List.ne_nil_of_mem hs)
  rw [h.same s hs]
  cases r with
  | upload r =>
      exact {
        trail := h.trail
        same := h.same
        there := fun _ => by
          rw [Sink.write, Directory.isSome_append, Directory.isSome_append]
          exact ⟨hup, hdown⟩
        uploaded := by
          simp [Sink.write, Directory.getD_append, hup, h.uploaded, framed_append, Record.upload?,
            Record.encode, String.append_assoc]
        downloaded := by
          simp [Sink.write, Directory.getD_append, hup, hne.symm, h.downloaded, Record.download?,
            List.filterMap_cons] }
  | download r =>
      exact {
        trail := h.trail
        same := h.same
        there := fun _ => by
          rw [Sink.write, Directory.isSome_append, Directory.isSome_append]
          exact ⟨hup, hdown⟩
        uploaded := by
          simp [Sink.write, Directory.getD_append, hdown, hne, h.uploaded, Record.upload?,
            List.filterMap_cons]
        downloaded := by
          simp [Sink.write, Directory.getD_append, hdown, h.downloaded, framed_append, Record.download?,
            Record.encode, String.append_assoc] }

/-- What every step of a history keeps, every history keeps. -/
theorem grown (h : History stem before sinks rs d)
    (huploads : before.trail.locate (Sink.uploadsName stem) = .ok uploads)
    (hdownloads : before.trail.locate (Sink.downloadsName stem) = .ok downloads) :
    Grown before d uploads downloads sinks rs := by
  induction h with
  | start => exact .start before uploads downloads
  | opened _ hopen ih =>
      rw [Directory.openLedger_eq (ih.trail.symm ▸ huploads) (ih.trail.symm ▸ hdownloads)] at hopen
      cases hopen
      exact ih.opened
  | wrote _ hs r ih => exact ih.wrote (Trail.uploads_ne_downloads huploads hdownloads) hs r

theorem trail_eq (h : History stem before sinks rs d) : d.trail = before.trail := by
  induction h with
  | start => rfl
  | opened _ hopen ih =>
      obtain ⟨uploads, downloads, huploads, hdownloads⟩ := Directory.locate_of_openLedger hopen
      rw [Directory.openLedger_eq huploads hdownloads] at hopen
      cases hopen
      rw [Directory.touch_trail, Directory.touch_trail, ih]
  | @wrote _ _ _ s _ _ r ih =>
      cases s with
      | nothing => exact ih
      | ledger uploads downloads => exact ih

/-- Where a ledger was opened, its files could be located from the start. -/
theorem exists_locate (h : History stem before sinks rs d) (hopened : sinks ≠ []) :
    ∃ uploads downloads, before.trail.locate (Sink.uploadsName stem) = .ok uploads ∧
      before.trail.locate (Sink.downloadsName stem) = .ok downloads := by
  induction h with
  | start => exact absurd rfl hopened
  | opened h hopen _ => exact h.trail_eq ▸ Directory.locate_of_openLedger hopen
  | wrote _ _ _ ih => exact ih hopened

/-- Whatever is written to the ledgers of a stem, through whichever of them and whenever they were opened,
each of the two files holds behind its earlier text one line for each of its records, in the order in which
they were written; no line holds a line break, and reading the lines gives the records but for their lengths
of time. Opening the ledger once more leads to the same files and leaves their texts alone. -/
theorem keeps_records (h : History stem before sinks rs d) (hopened : sinks ≠ [])
    (hrs : ∀ r ∈ rs, r.Writable) :
    ∃ uploads downloads, before.trail.locate (Sink.uploadsName stem) = .ok uploads ∧
      before.trail.locate (Sink.downloadsName stem) = .ok downloads ∧ uploads ≠ downloads ∧
      (∀ s ∈ sinks, s = .ledger uploads downloads) ∧
      Kept UploadRecord.encode UploadRecord.decode? UploadRecord.untimed (before.text? uploads)
        (d.text? uploads) (rs.filterMap Record.upload?) ∧
      Kept DownloadRecord.encode DownloadRecord.decode? DownloadRecord.untimed (before.text? downloads)
        (d.text? downloads) (rs.filterMap Record.download?) ∧
      ∃ d', d.openLedger stem = .ok (.ledger uploads downloads, d') ∧ d'.text? uploads = d.text? uploads ∧
        d'.text? downloads = d.text? downloads := by
  obtain ⟨uploads, downloads, huploads, hdownloads⟩ := h.exists_locate hopened
  have hgrown := h.grown huploads hdownloads
  obtain ⟨hup, hdown⟩ := hgrown.there hopened
  have htext {name text : String} (hthere : (d.text? name).isSome = true)
      (heq : (d.text? name).getD "" = text) : d.text? name = some text := by
    obtain ⟨t, ht⟩ := Option.isSome_iff_exists.mp hthere
    rw [ht, ← heq, ht, Option.getD_some]
  have hreopened {name : String} (hthere : (d.text? name).isSome = true) :
      ((d.touch uploads).touch downloads).text? name = d.text? name := by
    have htouched := Directory.text?_touch_of_isSome hthere uploads
    rw [Directory.text?_touch_of_isSome (by rwa [htouched]), htouched]
  refine ⟨uploads, downloads, huploads, hdownloads, Trail.uploads_ne_downloads huploads hdownloads,
    hgrown.same, .of_text UploadRecord.newline_not_mem_encode (fun r hr => ?_) (htext hup hgrown.uploaded),
    .of_text DownloadRecord.newline_not_mem_encode (fun r hr => ?_) (htext hdown hgrown.downloaded),
    _, Directory.openLedger_eq (hgrown.trail.symm ▸ huploads) (hgrown.trail.symm ▸ hdownloads), hreopened hup,
    hreopened hdown⟩
  · obtain ⟨record, hrecord, hkind⟩ := List.mem_filterMap.mp hr
    cases record with
    | upload r' =>
        obtain rfl := Option.some.inj hkind
        exact UploadRecord.decode?_encode (hrs _ hrecord)
    | download r' => cases hkind
  · obtain ⟨record, hrecord, hkind⟩ := List.mem_filterMap.mp hr
    cases record with
    | upload r' => cases hkind
    | download r' =>
        obtain rfl := Option.some.inj hkind
        exact DownloadRecord.decode?_encode (hrs _ hrecord)

/-- Two ledgers of one stem, the second opened between writes, and records written through both. The texts
hold line breaks, quotes and characters beyond 16 bits, and the times have nine, six, three and no digits of a
second. -/
theorem keeps_interleaved_records :
    ∃ (u : UploadRecord) (r : DownloadRecord) (d : Directory),
      u.error = some "a\n\"b\" 😀" ∧ u.addStart = some (.ofNanos (2 ^ 64 - 1)) ∧
        r.catStart = .ofNanos 1500000000 ∧
      History "run" (.empty ["data"]) (List.replicate 2 (.ledger "run_uploads.ndjson" "run_downloads.ndjson"))
        [.upload u, .download r, .upload u] d ∧
      Kept UploadRecord.encode UploadRecord.decode? UploadRecord.untimed none (d.text? "run_uploads.ndjson")
        [u, u] ∧
      Kept DownloadRecord.encode DownloadRecord.decode? DownloadRecord.untimed none
        (d.text? "run_downloads.ndjson") [r] := by
  let u : UploadRecord :=
    { UploadRecord.of ⟨"run\t1", "é", "0.1", "", "π"⟩ (Upload.start (.ofNat 7) 3) with
      addStart := some (.ofNanos (2 ^ 64 - 1)), provideStart := some (.ofNanos 1700000000123456000),
      error := some "a\n\"b\" 😀" }
  let r : DownloadRecord :=
    { DownloadRecord.of .empty "bootstrap" (.ofContent "bafy" (.ofNat 9) 1500000000) with
      idleBroadcast := some (.ofNanos 2000000000), discovery := some .index }
  let ledger : Sink := .ledger "run_uploads.ndjson" "run_downloads.ndjson"
  have huploads : Trail.locate ["data"] (Sink.uploadsName "run") = .ok "run_uploads.ndjson" := by
    decide +kernel
  have hdownloads : Trail.locate ["data"] (Sink.downloadsName "run") = .ok "run_downloads.ndjson" := by
    decide +kernel
  have hfirst : History "run" (.empty ["data"]) [ledger] [] _ :=
    .opened .start (Directory.openLedger_eq huploads hdownloads)
  have hwritten : History "run" (.empty ["data"]) [ledger] [.upload u, .download r] _ :=
    (hfirst.wrote (List.mem_singleton_self ledger) (.upload u)).wrote (List.mem_singleton_self ledger)
      (.download r)
  have hboth : History "run" (.empty ["data"]) [ledger, ledger] [.upload u, .download r, .upload u] _ :=
    (History.opened hwritten (Directory.openLedger_eq huploads hdownloads)).wrote List.mem_cons_self
      (.upload u)
  have hu : u.Writable := by
    refine ⟨by decide, ?_, ?_⟩
    · rintro t ⟨⟩
      exact ⟨_, by decide, rfl⟩
    · rintro t ⟨⟩
      exact ⟨_, by decide, rfl⟩
  have hr : r.Writable := by
    refine ⟨nofun, by decide, by decide, ⟨_, by decide, rfl⟩, ?_, nofun, nofun, nofun, nofun⟩
    rintro t ⟨⟩
    exact ⟨_, by decide, rfl⟩
  have hrs : ∀ x ∈ [Record.upload u, .download r, .upload u], x.Writable := by
    simp [Record.Writable, hu, hr]
  obtain ⟨uploads, downloads, hup, hdown, -, -, huploaded, hdownloaded, -⟩ :=
    keeps_records hboth (by simp) hrs
  obtain rfl := Except.ok.inj (huploads.symm.trans hup)
  obtain rfl := Except.ok.inj (hdownloads.symm.trans hdown)
  exact ⟨u, r, _, rfl, rfl, rfl, hboth, huploaded, hdownloaded⟩

end History

end ContentProbe
