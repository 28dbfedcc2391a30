import ContentProbe.Proofs.Run.Sleep
import ContentProbe.Run.Station
import Mathlib.Data.List.Chain

/-!
What the loop of probes does, in which order and how often. A station that keeps an account of what is done at
it shows the loop's acts, whatever the resets, the probes and the records come to. Each part of the loop
follows a plan: it carries it out to the end, or up to the act at which the loop ends, and that act has the
fault that the loop returns. Parts that follow plans one after the other follow the plans one after the other.
-/

namespace ContentProbe

open ContentProbe.Time

/-- What the loop does at a station, with what it comes to. A round begins when the wait for it is over. -/
inductive Act (ε : Type) where
  | reset (outcome : Except Node.Fault Nat)
  | begin (instant : Nat)
  | upload (outcome : Except (ProbeFault ε) Upload)
  | download (contentId : String) (outcome : Except (ProbeFault ε) Download)
  | keep (record : Record) (outcome : Except ε Unit)

/-- What the loop has to do, but for the records. -/
inductive Task where
  | reset
  | begin
  | upload
  | download
  deriving DecidableEq, Repr

namespace Act

variable {ε : Type}

def task? : Act ε → Option Task
  | .reset _ => some .reset
  | .begin _ => some .begin
  | .upload _ => some .upload
  | .download _ _ => some .download
  | .keep _ _ => none

/-- The fault of an act that ends the loop. A reset that failed and a probe whose queue was closed have none. -/
def fault? : Act ε → Option ε
  | .upload (.error (.failed e)) => some e
  | .download _ (.error (.failed e)) => some e
  | .keep _ (.error e) => some e
  | _ => none

/-- The record of a probe that came to a result. -/
def record? (run : RunInfo) : Act ε → Option Record
  | .upload (.ok u) => some (.upload (.of run u))
  | .download _ (.ok d) => some (.download (.of run Rota.source d))
  | _ => none

/-- The record that is given to be kept. -/
def kept? : Act ε → Option Record
  | .keep r _ => some r
  | _ => none

def contentId? : Act ε → Option String
  | .download contentId _ => some contentId
  | _ => none

def start? : Act ε → Option Nat
  | .begin instant => some instant
  | _ => none

end Act

namespace ProbeSettings

/-- The probes of a round. -/
def probes (settings : ProbeSettings) : List Task :=
  (if settings.mode.uploads then [.upload] else []) ++
    if settings.mode.downloads then List.replicate settings.downloadsPerIteration .download else []

theorem begin_not_mem (settings : ProbeSettings) : .begin ∉ settings.probes := by
  unfold probes
  split <;> split <;> simp

/-- The tasks of a round. -/
def round (settings : ProbeSettings) : List Task := .reset :: .begin :: settings.probes

/-- The tasks of all rounds. -/
def plan (settings : ProbeSettings) : List Task :=
  (List.replicate settings.maxIterations settings.round).flatten

end ProbeSettings

namespace Station

variable {σ ε : Type}

/-- A station at which nobody cancels, and at which a wait reaches its instant. -/
structure Steady (w : Station σ ε) : Prop where
  never : ∀ s, w.isCancelled s = false
  waits : ∀ instant s, instant ≤ w.now (w.waitUntil instant s)

/-- A station under a clock is steady unless an instant is set at which it is cancelled. -/
theorem steady_station {ν κ : Type} {o : Outfit ν κ ε} (hnever : o.cancelAt = none) : o.station.Steady where
  never s := by
    change o.cancelAt.any _ = false
    rw [hnever]
    rfl
  waits instant s := by
    -- unfolded as functions: at its arguments the sleep would be run
    have hwait : o.station.waitUntil = fun instant s =>
        { s with timeline := s.timeline.sleep (instant - s.timeline.now) } := rfl
    have hnow : o.station.now = fun s => s.timeline.now := rfl
    have hslept := s.timeline.le_now_sleep (instant - s.timeline.now)
    rw [hwait, hnow]
    dsimp only
    omega

/-- A station that also keeps what was done at it, in order. -/
def recorded (w : Station σ ε) : Station (σ × List (Act ε)) ε where
  now s := w.now s.1
  isCancelled s := w.isCancelled s.1
  reset s :=
    let (outcome, next) := w.reset s.1
    (outcome, next, s.2 ++ [.reset outcome])
  waitUntil instant s :=
    let next := w.waitUntil instant s.1
    (next, s.2 ++ [.begin (w.now next)])
  upload s :=
    let (outcome, next) := w.upload s.1
    (outcome, next, s.2 ++ [.upload outcome])
  download contentId s :=
    let (outcome, next) := w.download contentId s.1
    (outcome, next, s.2 ++ [.download contentId outcome])
  keep record s :=
    let (outcome, next) := w.keep record s.1
    (outcome, next, s.2 ++ [.keep record outcome])

theorem Steady.recorded {w : Station σ ε} (h : w.Steady) : w.recorded.Steady :=
  ⟨fun s => h.never s.1, fun instant s => h.waits instant s.1⟩

theorem recorded_upload (w : Station σ ε) (s : σ) (log : List (Act ε)) :
    w.recorded.upload (s, log) = ((w.upload s).1, (w.upload s).2, log ++ [.upload (w.upload s).1]) := rfl

theorem recorded_download (w : Station σ ε) (contentId : String) (s : σ) (log : List (Act ε)) :
    w.recorded.download contentId (s, log) = ((w.download contentId s).1, (w.download contentId s).2,
      log ++ [.download contentId (w.download contentId s).1]) := rfl

theorem recorded_keep (w : Station σ ε) (r : Record) (s : σ) (log : List (Act ε)) :
    w.recorded.keep r (s, log) = ((w.keep r s).1, (w.keep r s).2, log ++ [.keep r (w.keep r s).1]) := rfl

/-- Acts that follow a plan and come to an outcome. They carry the plan out and nothing ends them, or they end
at the first act with a fault, which is the outcome. Every probe that came to a result had its record kept, in
order. The downloads take the ids in turn, from the one at a position on, and after the last one comes the
first again. -/
structure Follows {α : Type} (run : RunInfo) (ids : List String) (position : Nat) (plan : List Task)
    (outcome : Except ε α) (acts : List (Act ε)) : Prop where
  ends : match outcome with
    | .ok _ => acts.filterMap Act.task? = plan ∧ ∀ a ∈ acts, a.fault? = none
    | .error e => acts.filterMap Act.task? <+: plan ∧
        ∃ earlier last, acts = earlier ++ [last] ∧ last.fault? = some e ∧ ∀ a ∈ earlier, a.fault? = none
  records : acts.filterMap Act.kept? = acts.filterMap (Act.record? run)
  contentIds : ∀ (i : Nat) (contentId : String), (acts.filterMap Act.contentId?)[i]? = some contentId →
    ids[(position + i) % ids.length]? = some contentId

section Follows

variable {α β : Type} {run : RunInfo} {ids : List String} {position : Nat} {plan plan' : List Task}
  {acts acts' : List (Act ε)}

theorem length_contentIds (acts : List (Act ε)) :
    (acts.filterMap Act.contentId?).length = (acts.filterMap Act.task?).count .download := by
  induction acts with
  | nil => rfl
  | cons a acts ih =>
      rw [List.filterMap_cons, List.filterMap_cons]
      cases a with
      | download contentId outcome => simpa [Act.contentId?, Act.task?] using ih
      | _ => simpa [Act.contentId?, Act.task?] using ih

/-- What follows one plan and then another follows the plan of both. -/
theorem Follows.append {a : α} {outcome : Except ε β}
    (h : Follows run ids position plan (.ok a : Except ε α) acts)
    (h' : Follows run ids (position + plan.count .download) plan' outcome acts') :
    Follows run ids position (plan ++ plan') outcome (acts ++ acts') := by
  obtain ⟨⟨htasks, hfaultless⟩, hrecords, hids⟩ := h
  obtain ⟨hends, hrecords', hids'⟩ := h'
  refine ⟨?_, ?_, fun i contentId hi => ?_⟩
  · cases outcome with
    | ok b =>
        obtain ⟨htasks', hfaultless'⟩ := hends
        refine ⟨by rw [List.filterMap_append, htasks, htasks'], fun x hx => ?_⟩
        exact (List.mem_append.mp hx).elim (hfaultless x) (hfaultless' x)
    | error e =>
        obtain ⟨htasks', earlier, last, rfl, hlast, hearlier⟩ := hends
        refine ⟨?_, acts ++ earlier, last, (List.append_assoc ..).symm, hlast, fun x hx => ?_⟩
        · rw [List.filterMap_append, htasks]
          exact (List.prefix_append_right_inj plan).mpr htasks'
        · exact (List.mem_append.mp hx).elim (hfaultless x) (hearlier x)
  · rw [List.filterMap_append, List.filterMap_append, hrecords, hrecords']
  · have hlength : (acts.filterMap Act.contentId?).length = plan.count .download := by
      rw [length_contentIds, htasks]
    rw [List.filterMap_append, List.getElem?_append] at hi
    split at hi
    · exact hids i contentId hi
    · rename_i hle
      rw [hlength] at hle hi
      have hposition : position + i = position + plan.count .download + (i - plan.count .download) := by omega
      rw [hposition]
      exact hids' _ contentId hi

/-- What ends early in a plan ends early in every longer one. -/
theorem Follows.stop {e : ε} (h : Follows run ids position plan (.error e : Except ε α) acts)
    (plan' : List Task) : Follows run ids position (plan ++ plan') (.error e : Except ε β) acts :=
  ⟨⟨h.ends.1.trans (List.prefix_append plan plan'), h.ends.2⟩, h.records, h.contentIds⟩

theorem Follows.nil (a : α) : Follows run ids position [] (.ok a : Except ε α) [] :=
  ⟨⟨rfl, by simp⟩, rfl, by simp⟩

theorem Follows.tasks_initial {outcome : Except ε α} (h : Follows run ids position plan outcome acts) :
    acts.filterMap Act.task? <+: plan := by
  cases outcome with
  | ok a => exact h.ends.1 ▸ List.prefix_refl _
  | error e => exact h.ends.1

/-- Only a plan to begin brings starts. -/
theorem starts_eq_nil (htasks : acts.filterMap Act.task? <+: plan) (hplan : .begin ∉ plan) :
    acts.filterMap Act.start? = [] := by
  rw [List.filterMap_eq_nil_iff]
  intro a ha
  cases a with
  | begin instant =>
      have htask : Task.begin ∈ acts.filterMap Act.task? := List.mem_filterMap.mpr ⟨.begin instant, ha, rfl⟩
      exact absurd (htasks.subset htask) hplan
  | _ => rfl

/-! Acts for one task -/

section Task

variable {a : Act ε} {t : Task}

theorem kept?_eq_none (htask : a.task? = some t) : a.kept? = none := by
  cases a with
  | keep r outcome => cases htask
  | _ => rfl

theorem contentIds_cons (hid : ∀ contentId ∈ a.contentId?, ids[position % ids.length]? = some contentId)
    {rest : List (Act ε)} (hrest : rest.filterMap Act.contentId? = []) (i : Nat) (contentId : String)
    (hi : ((a :: rest).filterMap Act.contentId?)[i]? = some contentId) :
    ids[(position + i) % ids.length]? = some contentId := by
  cases ha : a.contentId? with
  | none => simp [List.filterMap_cons_none ha, hrest] at hi
  | some found =>
      rw [List.filterMap_cons_some ha, hrest] at hi
      cases i with
      | zero => exact hid contentId (ha.trans hi)
      | succ i => simp at hi

variable (htask : a.task? = some t)
  (hid : ∀ contentId ∈ a.contentId?, ids[position % ids.length]? = some contentId)

include htask hid

/-- A probe whose queue was closed, and whatever else leaves nothing to keep, lets the loop go on. -/
theorem Follows.passed (hfault : a.fault? = none) (hrecord : a.record? run = none) (x : α) :
    Follows run ids position [t] (.ok x : Except ε α) [a] := by
  refine ⟨⟨List.filterMap_cons_some htask, by simpa using hfault⟩, ?_, contentIds_cons hid rfl⟩
  rw [List.filterMap_cons_none (kept?_eq_none htask), List.filterMap_cons_none hrecord]
  rfl

theorem Follows.failed {e : ε} (hfault : a.fault? = some e) (hrecord : a.record? run = none) :
    Follows run ids position [t] (.error e : Except ε α) [a] := by
  have htasks : [a].filterMap Act.task? = [t] := List.filterMap_cons_some htask
  refine ⟨⟨htasks ▸ List.prefix_refl _, [], a, rfl, hfault, by simp⟩, ?_, contentIds_cons hid rfl⟩
  rw [List.filterMap_cons_none (kept?_eq_none htask), List.filterMap_cons_none hrecord]
  rfl

/-- The record of a probe is kept right after it, which ends the loop if it cannot be. -/
theorem Follows.kept {r : Record} (hfault : a.fault? = none) (hrecord : a.record? run = some r)
    (outcome : Except ε Unit) : Follows run ids position [t] outcome [a, .keep r outcome] := by
  have htasks : [a, .keep r outcome].filterMap Act.task? = [t] := List.filterMap_cons_some htask
  refine ⟨?_, ?_, contentIds_cons hid rfl⟩
  · cases outcome with
    | ok x =>
        refine ⟨htasks, fun b hb => ?_⟩
        rcases List.mem_cons.mp hb with rfl | hb
        · exact hfault
        · rw [List.mem_singleton.mp hb]
          rfl
    | error e => exact ⟨htasks ▸ List.prefix_refl _, [a], .keep r (.error e), rfl, rfl, by simpa using hfault⟩
  · rw [List.filterMap_cons_none (kept?_eq_none htask), List.filterMap_cons_some hrecord]
    rfl

end Task

end Follows

/-! The parts of the loop -/

/-- Goes on with a result; a fault is handed on. -/
def andThen {τ α β : Type} (r : Except ε α × τ) (next : α → τ → Except ε β × τ) : Except ε β × τ :=
  match r with
  | (.error e, s) => (.error e, s)
  | (.ok a, s) => next a s

/-- A part of the loop comes to the same at both stations, its acts follow a plan, and its result, if it comes
to one, is as expected. -/
def Traced {α : Type} (run : RunInfo) (ids : List String) (position : Nat) (plan : List Task)
    (expected : α → Prop) (log : List (Act ε)) (plain : Except ε α × σ)
    (kept : Except ε α × σ × List (Act ε)) : Prop :=
  ∃ acts, kept = (plain.1, plain.2, log ++ acts) ∧ Follows run ids position plan plain.1 acts ∧
    ∀ a, plain.1 = .ok a → expected a

section Parts

variable (w : Station σ ε) {run : RunInfo} {ids : List String} {position : Nat} {log : List (Act ε)}

theorem Traced.andThen {α β : Type} {plan plan' : List Task} {expected : α → Prop} {expected' : β → Prop}
    {plain : Except ε α × σ} {kept : Except ε α × σ × List (Act ε)}
    {next : α → σ → Except ε β × σ} {next' : α → σ × List (Act ε) → Except ε β × σ × List (Act ε)}
    (h : Traced run ids position plan expected log plain kept)
    (hnext : ∀ a s log, expected a →
      Traced run ids (position + plan.count .download) plan' expected' log (next a s) (next' a (s, log))) :
    Traced run ids position (plan ++ plan') expected' log (Station.andThen plain next)
      (Station.andThen kept next') := by
  obtain ⟨acts, rfl, hfollows, hexpected⟩ := h
  obtain ⟨outcome, s⟩ := plain
  cases outcome with
  | error e => exact ⟨acts, rfl, hfollows.stop plan', nofun⟩
  | ok a =>
      obtain ⟨acts', hacts', hfollows', hexpected'⟩ := hnext a s (log ++ acts) (hexpected a rfl)
      exact ⟨acts ++ acts', hacts'.trans (by rw [List.append_assoc]; rfl), hfollows.append hfollows', hexpected'⟩

theorem uploadOnce_traced (s : σ) :
    Traced run ids position [.upload] (fun _ => True) log (w.uploadOnce run s)
      (w.recorded.uploadOnce run (s, log)) := by
  have hnone (outcome : Except (ProbeFault ε) Upload) :
      ∀ contentId ∈ (Act.upload outcome).contentId?, ids[position % ids.length]? = some contentId := by
    simp [Act.contentId?]
  rw [uploadOnce, uploadOnce, recorded_upload]
  obtain ⟨outcome, s⟩ := w.upload s
  rcases outcome with (⟨⟨⟩⟩ | e) | u
  · exact ⟨_, rfl, .passed rfl (hnone _) rfl rfl (), fun _ _ => trivial⟩
  · exact ⟨_, rfl, .failed rfl (hnone _) rfl rfl, fun _ _ => trivial⟩
  · refine ⟨_, ?_, .kept rfl (hnone (.ok u)) rfl rfl _, fun _ _ => trivial⟩
    simp only [recorded_keep, List.append_assoc, List.singleton_append]

theorem downloadOnce_traced {contentId : String} (hid : ids[position % ids.length]? = some contentId) (s : σ) :
    Traced run ids position [.download] (fun _ => True) log (w.downloadOnce run contentId s)
      (w.recorded.downloadOnce run contentId (s, log)) := by
  have hsame (outcome : Except (ProbeFault ε) Download) :
      ∀ found ∈ (Act.download contentId outcome).contentId?, ids[position % ids.length]? = some found := by
    simpa [Act.contentId?] using hid
  rw [downloadOnce, downloadOnce, recorded_download]
  obtain ⟨outcome, s⟩ := w.download contentId s
  rcases outcome with (⟨⟨⟩⟩ | e) | d
  · exact ⟨_, rfl, .passed rfl (hsame _) rfl rfl (), fun _ _ => trivial⟩
  · exact ⟨_, rfl, .failed rfl (hsame _) rfl rfl, fun _ _ => trivial⟩
  · refine ⟨_, ?_, .kept rfl (hsame (.ok d)) rfl rfl _, fun _ _ => trivial⟩
    simp only [recorded_keep, List.append_assoc, List.singleton_append]

theorem downloads_succ (hsteady : w.Steady) (count : Nat) (s : σ) :
    w.downloads run (count + 1) ⟨ids, position % ids.length⟩ s =
      andThen (w.downloadOnce run (ids.getD (position % ids.length) "") s) fun _ s =>
        w.downloads run count ⟨ids, (position + 1) % ids.length⟩ s := by
  rw [downloads, hsteady.never, if_neg Bool.false_ne_true]
  simp only [Rota.take, Nat.mod_add_mod]
  rcases w.downloadOnce run (ids.getD (position % ids.length) "") s with ⟨e | x, s⟩ <;> rfl

theorem probes_eq (settings : ProbeSettings) (rota : Rota) (s : σ) :
    w.probes settings run rota s =
      andThen (if settings.mode.uploads then w.uploadOnce run s else (.ok (), s)) fun _ s =>
        if settings.mode.downloads then w.downloads run settings.downloadsPerIteration rota s
        else (.ok rota, s) := by
  unfold probes
  rcases (if settings.mode.uploads then w.uploadOnce run s else (.ok (), s)) with ⟨e | x, s⟩ <;> rfl

theorem rounds_succ (hsteady : w.Steady) (settings : ProbeSettings) (count next : Nat) (rota : Rota) (s : σ) :
    let begun := w.waitUntil next (w.reset s).2
    w.rounds settings run (count + 1) next rota s =
      andThen (w.probes settings run rota begun) fun rota s =>
        w.rounds settings run count (w.now begun + settings.interval * millisecond) rota s := by
  intro begun
  rw [rounds]
  simp only [hsteady.never, Bool.false_eq_true, if_false]
  rcases w.probes settings run rota begun with ⟨e | rota, s⟩ <;> rfl

/-- The acts of a round before its probes. -/
def opening (w : Station σ ε) (next : Nat) (s : σ) : List (Act ε) :=
  [.reset (w.reset s).1, .begin (w.now (w.waitUntil next (w.reset s).2))]

theorem opening_follows (position next : Nat) (s : σ) :
    Follows run ids position [.reset, .begin] (.ok () : Except ε Unit) (w.opening next s) := by
  have hreset : Follows run ids position [.reset] (.ok () : Except ε Unit) [.reset (w.reset s).1] :=
    .passed rfl (by simp [Act.contentId?]) rfl rfl ()
  exact hreset.append (.passed rfl (by simp [Act.contentId?]) rfl rfl ())

theorem recorded_begun (next : Nat) (s : σ) (log : List (Act ε)) :
    w.recorded.waitUntil next (w.recorded.reset (s, log)).2 =
      (w.waitUntil next (w.reset s).2, log ++ w.opening next s) := by
  change (_, log ++ [_] ++ [_]) = _
  rw [List.append_assoc]
  rfl

/-- A round has one start, before its probes. -/
theorem starts_opening {settings : ProbeSettings} {acts : List (Act ε)}
    (htasks : acts.filterMap Act.task? <+: settings.probes) (next : Nat) (s : σ) (rest : List (Act ε)) :
    (w.opening next s ++ (acts ++ rest)).filterMap Act.start? =
      w.now (w.waitUntil next (w.reset s).2) :: rest.filterMap Act.start? := by
  rw [List.filterMap_append, List.filterMap_append, starts_eq_nil htasks settings.begin_not_mem]
  rfl

variable (hids : ids ≠ []) (hsteady : w.Steady)

include hids hsteady

/-- Each download takes the next of the ids. -/
theorem downloads_traced (count : Nat) (s : σ) :
    Traced run ids position (List.replicate count .download)
      (· = ⟨ids, (position + count) % ids.length⟩) log
      (w.downloads run count ⟨ids, position % ids.length⟩ s)
      (w.recorded.downloads run count ⟨ids, position % ids.length⟩ (s, log)) := by
  induction count generalizing position s log with
  | zero =>
      refine ⟨[], ?_, .nil _, fun rota h => (Except.ok.inj h).symm⟩
      simp only [downloads, List.append_nil]
  | succ count ih =>
      have hid : ids[position % ids.length]? = some (ids.getD (position % ids.length) "") := by
        have hlt : position % ids.length < ids.length := Nat.mod_lt _ (List.length_pos_iff.mpr hids)
        simp [hlt]
      rw [w.downloads_succ hsteady, w.recorded.downloads_succ hsteady.recorded, List.replicate_succ,
        Nat.add_comm count 1, ← Nat.add_assoc]
      exact (w.downloadOnce_traced hid s).andThen fun _ s log _ => ih s

theorem probes_traced (settings : ProbeSettings) (s : σ) :
    Traced run ids position settings.probes
      (· = ⟨ids, (position + settings.probes.count .download) % ids.length⟩) log
      (w.probes settings run ⟨ids, position % ids.length⟩ s)
      (w.recorded.probes settings run ⟨ids, position % ids.length⟩ (s, log)) := by
  have hcount : (if settings.mode.uploads then [Task.upload] else []).count .download = 0 := by
    split <;> rfl
  have hupload : Traced run ids position (if settings.mode.uploads then [.upload] else []) (fun _ => True) log
      (if settings.mode.uploads then w.uploadOnce run s else (.ok (), s))
      (if settings.mode.uploads then w.recorded.uploadOnce run (s, log) else (.ok (), s, log)) := by
    split
    · exact w.uploadOnce_traced s
    · exact ⟨[], by rw [List.append_nil], .nil (), fun _ _ => trivial⟩
  rw [ProbeSettings.probes, List.count_append, hcount, Nat.zero_add, probes_eq, probes_eq]
  refine hupload.andThen fun _ s log _ => ?_
  rw [hcount, Nat.add_zero]
  split
  · rw [List.count_replicate_self]
    exact w.downloads_traced hids hsteady settings.downloadsPerIteration s
  · exact ⟨[], by rw [List.append_nil], .nil _, fun rota h => (Except.ok.inj h).symm⟩

/-- Rounds follow one another, the first one no earlier than it may begin and each of the others no earlier
than an interval after the one before. -/
theorem rounds_follow (settings : ProbeSettings) (count next : Nat) (s : σ) :
    let plain := w.rounds settings run count next ⟨ids, position % ids.length⟩ s
    ∃ acts, w.recorded.rounds settings run count next ⟨ids, position % ids.length⟩ (s, log) =
        (plain.1, plain.2, log ++ acts) ∧
      Follows run ids position (List.replicate count settings.round).flatten plain.1 acts ∧
      (∀ t ∈ (acts.filterMap Act.start?).head?, next ≤ t) ∧
      (acts.filterMap Act.start?).IsChain fun t t' => t + settings.interval * millisecond ≤ t' := by
  intro plain
  induction count generalizing position next s log with
  | zero => exact ⟨[], by simp [plain, rounds], .nil (), by simp, .nil⟩
  | succ count ih =>
      have hround : (List.replicate (count + 1) settings.round).flatten =
          [.reset, .begin] ++ (settings.probes ++ (List.replicate count settings.round).flatten) := rfl
      let begun := w.waitUntil next (w.reset s).2
      obtain ⟨acts, hacts, hfollows, hrota⟩ :
          Traced run ids position settings.probes _ (log ++ w.opening next s) _ _ :=
        w.probes_traced hids hsteady settings begun
      have hstarts := w.starts_opening hfollows.tasks_initial next s
      simp only [plain, w.rounds_succ hsteady, w.recorded.rounds_succ hsteady.recorded, recorded_begun]
      rw [hround, hacts]
      generalize w.probes settings run ⟨ids, position % ids.length⟩ begun = result at hfollows hrota ⊢
      obtain ⟨outcome, after⟩ := result
      have hopening : Follows run ids position [.reset, .begin] (.ok () : Except ε Unit) (w.opening next s) :=
        w.opening_follows position next s
      cases outcome with
      | error e =>
          have hbegun := hstarts []
          rw [List.append_nil] at hbegun
          refine ⟨w.opening next s ++ acts, ?_, hopening.append (hfollows.stop _), ?_, ?_⟩
          · rw [← List.append_assoc]
            rfl
          · simpa [hbegun] using hsteady.waits next _
          · rw [hbegun]
            exact .singleton _
      | ok rota =>
          obtain rfl := hrota rota rfl
          obtain ⟨rest, hrest, hfollows', hfirst, hspaced⟩ :=
            ih (w.now begun + settings.interval * millisecond) after
          refine ⟨w.opening next s ++ (acts ++ rest), ?_, hopening.append (hfollows.append hfollows'), ?_, ?_⟩
          · rw [← List.append_assoc, ← List.append_assoc]
            exact hrest
          · simpa [hstarts] using hsteady.waits next _
          · rw [hstarts, List.isChain_cons]
            exact ⟨hfirst, hspaced⟩

end Parts

/-- A loop with a bound, at a steady station, carries out the plan of its settings: to the end, or up to the act whose
fault it returns. Every probe that came to a result has its record kept, the downloads take the ids in turn, and each
round begins an interval or more after the one before. To keep an account of this changes nothing. -/
theorem loop_follows_plan (w : Station σ ε) (settings : ProbeSettings) (run : RunInfo) (s : σ)
    (hbounded : 1 ≤ settings.maxIterations) (hsteady : w.Steady) :
    let ids := if settings.contentIds = [] then defaultContentIds else settings.contentIds
    ∃ acts, w.recorded.runLoop settings run (s, []) =
        ((w.runLoop settings run s).1, (w.runLoop settings run s).2, acts) ∧
      Follows run ids 0 settings.plan (w.runLoop settings run s).1 acts ∧
      (acts.filterMap Act.start?).IsChain fun t t' => t + settings.interval * millisecond ≤ t' := by
  intro ids
  have hids : ids ≠ [] := by
    unfold ids
    split
    · exact List.cons_ne_nil _ _
    · assumption
  have hrota : Rota.ofIds settings.contentIds = ⟨ids, 0 % ids.length⟩ := by
    simp [Rota.ofIds, ids]
  have hrounds : roundsOf settings = settings.maxIterations := if_neg (by omega)
  obtain ⟨acts, hacts, hfollows, -, hspaced⟩ :=
    w.rounds_follow hids hsteady settings settings.maxIterations (w.now s) s
  simp only [runLoop, hrota, hrounds]
  exact ⟨acts, hacts, hfollows, hspaced⟩

/-- A station at which every reset fails and each probe takes five milliseconds. The second probe finds its
queue closed, and the record of the sixth cannot be kept. Its state is the instant and the number of probes. -/
def rehearsal : Station (Nat × Nat) String where
  now s := s.1
  isCancelled _ := false
  reset s := (.error (.unavailable 1), s)
  waitUntil instant s := (max s.1 instant, s.2)
  upload s := (.ok (.start (.ofNat 7) 100), s.1 + 5 * millisecond, s.2 + 1)
  download contentId s :=
    (if s.2 = 1 then .error (.run .channelClosed) else .ok (.ofContent contentId (.ofNat 8) 0),
      s.1 + 5 * millisecond, s.2 + 1)
  keep _ s := (if s.2 = 6 then .error "full" else .ok (), s)

/-- Three rounds of an upload and two downloads, twenty milliseconds apart. -/
def rehearsalSettings : ProbeSettings :=
  ⟨100, 20, 3, "http://127.0.0.1:5001", 0, .localhost, 4317, none, false, .both, "", ["a", "b", "c"], 2⟩

theorem rehearsal_follows_plan :
    1 ≤ rehearsalSettings.maxIterations ∧ rehearsal.Steady ∧
      ∃ acts, Follows .empty ["a", "b", "c"] 0 rehearsalSettings.plan
          (rehearsal.runLoop rehearsalSettings .empty (0, 0)).1 acts ∧
        (rehearsal.runLoop rehearsalSettings .empty (0, 0)).1 = .error "full" ∧
        acts.filterMap Act.contentId? = ["a", "b", "c", "a"] ∧
        acts.filterMap Act.start? = [0, 20 * millisecond] := by
  have hsteady : rehearsal.Steady := ⟨fun _ => rfl, fun instant s => Nat.le_max_right s.1 instant⟩
  obtain ⟨acts, hacts, hfollows, -⟩ :=
    loop_follows_plan rehearsal rehearsalSettings .empty (0, 0) (by decide) hsteady
  obtain rfl : (rehearsal.recorded.runLoop rehearsalSettings .empty ((0, 0), [])).2.2 = acts :=
    congrArg (·.2.2) hacts
  exact ⟨by decide, hsteady, _, hfollows, by rfl, by rfl, by rfl⟩

end Station

end ContentProbe
