import ContentProbe.Proofs.Download.Convergence
import ContentProbe.Proofs.Record.Fields
import ContentProbe.Proofs.Store.FirstWins
import ContentProbe.Proofs.Upload.Convergence

/-!
Where one batch ends and the next begins does not matter. Between two batches a measurement derives its fields
and moves the traces of new anchors to the tracked area; of one batch with the same spans it does so once, at
the end. But which spans a place takes does not depend on the area of its trace, so both hold the same spans in
the end and have counted the same; and the anchors of the first batch are still there after the second, so both
track the same traces. That two reports disagree about a place plays no part.
-/

namespace ContentProbe

namespace Intake

instance : Add Intake where
  add i j := ⟨i.accepted + j.accepted, i.duplicates + j.duplicates, i.malformed + j.malformed⟩

theorem add_def (i j : Intake) :
    i + j = ⟨i.accepted + j.accepted, i.duplicates + j.duplicates, i.malformed + j.malformed⟩ := rfl

theorem add_zero (i : Intake) : i + .zero = i := rfl

theorem add_assoc (i j k : Intake) : i + j + k = i + (j + k) := by
  simp only [add_def, Nat.add_assoc]

end Intake

namespace Area

/-- The traces of an area, each with its spans by their ids. -/
def byTrace (a : Area) (t : TraceId) : Option (SpanId → Option Span) :=
  (a.get? t).map fun spans id => spans.find? (·.id = id)

theorem byTrace_eq (a : Area) (t : TraceId) :
    a.byTrace t = if a.contains t = true then some (a.span? t) else none := by
  unfold byTrace contains
  cases hget : a.get? t with
  | none => rfl
  | some spans =>
      have hspans : (fun id => spans.find? (·.id = id)) = a.span? t := by
        funext id
        rw [span?, hget, Option.bind_some]
      simp [hspans]

theorem byTrace_congr {a b : Area} (hcontains : ∀ t, a.contains t = true ↔ b.contains t = true)
    (hspan : ∀ t id, a.span? t id = b.span? t id) : a.byTrace = b.byTrace := by
  funext t
  have hplaces : a.span? t = b.span? t := funext (hspan t)
  simp only [byTrace_eq, hcontains, hplaces]

end Area

namespace Store

/-- The stores are the same but for the order of their traces and of the spans in each. -/
structure Alike (s s' : Store) : Prop where
  tracked : s.tracked.byTrace = s'.tracked.byTrace
  pending : s.pending.byTrace = s'.pending.byTrace
  spans : s.allSpans.Perm s'.allSpans

theorem Alike.refl (s : Store) : s.Alike s := ⟨rfl, rfl, .refl _⟩

/-- Stores that hold the same spans and track the same traces are alike. -/
theorem Shows.alike {s s' : Store} {m m' : PlaceMap} (h : s.Shows m) (h' : s'.Shows m')
    (hplaces : ∀ t id, s.span? t id = s'.span? t id)
    (htracked : ∀ t, s.isTracked t = true ↔ s'.isTracked t = true) : s.Alike s' := by
  have hspan (t : TraceId) (id : SpanId) : m.span? t id = m'.span? t id := by
    rw [← h.places, ← h'.places, hplaces]
  have hmem (t : TraceId) : t ∈ m.tracked ↔ t ∈ m'.tracked := by
    rw [← h.tracked, ← h'.tracked, htracked]
  refine ⟨Area.byTrace_congr htracked fun t id => ?_, Area.byTrace_congr (fun t => ?_) fun t id => ?_, ?_⟩
  · simp only [h.splits.tracked, h'.splits.tracked, hspan, hmem]
  · simp only [h.splits.waiting, h'.splits.waiting, hspan, hmem]
  · simp only [h.splits.pending, h'.splits.pending, hspan, hmem]
  · refine (List.perm_ext_iff_of_nodup h.splits.once h'.splits.once).mpr fun x => ?_
    rw [h.splits.stored, h'.splits.stored, hspan]

/-! What a batch brings and what is counted -/

theorem take_add (s : Store) (i : Intake) (w : Wire.Span) :
    Store.take (s, i) w = ((Store.take (s, .zero) w).1, i + (Store.take (s, .zero) w).2) := by
  cases hw : Span.ofWire w with
  | error f => simp [Store.take, hw, Intake.add_def, Intake.zero]
  | ok x =>
      rw [take_of_ok hw, take_of_ok hw]
      cases (s.insert x).2 <;> simp [Intake.add_def, Intake.zero]

theorem foldl_take_add (s : Store) (i : Intake) (reports : List Wire.Span) :
    reports.foldl Store.take (s, i) =
      ((reports.foldl Store.take (s, .zero)).1, i + (reports.foldl Store.take (s, .zero)).2) := by
  induction reports generalizing s i with
  | nil => exact congrArg (Prod.mk s) (Intake.add_zero i).symm
  | cons w reports ih =>
      rw [List.foldl_cons, List.foldl_cons, take_add s i, ih, ← Prod.mk.eta (p := Store.take (s, .zero) w),
        ih _ (Store.take (s, .zero) w).2, Intake.add_assoc]

/-- A batch of the spans of two brings what these bring one after the other, and counts what they count. -/
theorem ingest_append (s : Store) {first second joined : Wire.Batch}
    (hjoined : joined.spans = first.spans ++ second.spans) :
    s.ingest joined =
      (((s.ingest first).1.ingest second).1, (s.ingest first).2 + ((s.ingest first).1.ingest second).2) := by
  simp only [ingest, hjoined, List.foldl_append]
  exact foldl_take_add ..

/-- What is counted depends on the places that are taken, in whichever area they are. -/
theorem foldl_take_snd_congr {s s' : Store} (hs : s.WellFormed) (hs' : s'.WellFormed)
    (hplaces : ∀ t id, s.span? t id = s'.span? t id) (i : Intake) (reports : List Wire.Span) :
    (reports.foldl Store.take (s, i)).2 = (reports.foldl Store.take (s', i)).2 := by
  induction reports generalizing s s' i with
  | nil => rfl
  | cons w reports ih =>
      rw [List.foldl_cons, List.foldl_cons]
      cases hw : Span.ofWire w with
      | error f =>
          simp only [Store.take, hw]
          exact ih hs hs' hplaces _
      | ok x =>
          rw [take_of_ok hw, take_of_ok hw, insert_snd hs, insert_snd hs', hplaces]
          refine ih (hs.insert x) (hs'.insert x) (fun t id => ?_) _
          rw [span?_insert hs, span?_insert hs', hplaces]

/-! Batches and anchors -/

/-- The store takes a batch in and then tracks the traces of all spans of a kind that it holds. -/
def Absorbs (kind : Span → Bool) (s : Store) (b : Wire.Batch) (s' : Store) : Prop :=
  ∃ traces : List TraceId,
    (∀ t, t ∈ traces ↔ ∃ a ∈ (s.ingest b).1.allSpans, kind a = true ∧ a.trace = t) ∧
      s' = (s.ingest b).1.trackAll traces

section Absorbs

variable {kind : Span → Bool} {s s' : Store} {b : Wire.Batch}

theorem Absorbs.wellFormed (h : Absorbs kind s b s') (hs : s.WellFormed) : s'.WellFormed := by
  obtain ⟨traces, -, rfl⟩ := h
  exact (hs.ingest b).trackAll traces

theorem Absorbs.span? (h : Absorbs kind s b s') (hs : s.WellFormed) (t : TraceId) (id : SpanId) :
    s'.span? t id = (s.span? t id).or (firstSpan? (Span.ofBatch b) t id) := by
  obtain ⟨traces, -, rfl⟩ := h
  rw [span?_trackAll, ingest_fst, span?_insertAll hs]

theorem Absorbs.isTracked_iff (h : Absorbs kind s b s') (hs : s.WellFormed) (t : TraceId) :
    s'.isTracked t = true ↔
      s.isTracked t = true ∨ ∃ a ∈ s'.allSpans, kind a = true ∧ a.trace = t := by
  obtain ⟨traces, htraces, rfl⟩ := h
  simp only [isTracked_trackAll, isTracked_ingest, htraces, mem_allSpans_trackAll (hs.ingest b)]
  exact or_comm

theorem Absorbs.mem_of_mem (h : Absorbs kind s b s') (hs : s.WellFormed) {x : Span} (hx : x ∈ s.allSpans) :
    x ∈ s'.allSpans := by
  rw [mem_allSpans_iff hs] at hx
  rw [mem_allSpans_iff (h.wellFormed hs), h.span? hs, hx, Option.some_or]

/-- A store that absorbs two batches and one that absorbs the spans of both at once hold the same spans, track
the same traces and have counted the same. -/
theorem Absorbs.rebatched {between split whole : Store} {first second joined : Wire.Batch}
    (hs : s.WellFormed) (hfirst : Absorbs kind s first between) (hsecond : Absorbs kind between second split)
    (hwhole : Absorbs kind s joined whole) (hjoined : joined.spans = first.spans ++ second.spans) :
    (∀ t id, split.span? t id = whole.span? t id) ∧
      (∀ t, split.isTracked t = true ↔ whole.isTracked t = true) ∧
      (s.ingest first).2 + (between.ingest second).2 = (s.ingest joined).2 := by
  have hbetween := hfirst.wellFormed hs
  have hplaces (t : TraceId) (id : SpanId) : split.span? t id = whole.span? t id := by
    have hbatch : Span.ofBatch joined = Span.ofBatch first ++ Span.ofBatch second := by
      rw [Span.ofBatch, hjoined, List.filterMap_append]
      rfl
    rw [hsecond.span? hbetween, hfirst.span? hs, hwhole.span? hs, hbatch, firstSpan?_append, Option.or_assoc]
  have hmem (x : Span) : x ∈ split.allSpans ↔ x ∈ whole.allSpans := by
    rw [mem_allSpans_iff (hsecond.wellFormed hbetween), mem_allSpans_iff (hwhole.wellFormed hs), hplaces]
  refine ⟨hplaces, fun t => ?_, ?_⟩
  · rw [hsecond.isTracked_iff hbetween, hfirst.isTracked_iff hs, hwhole.isTracked_iff hs]
    simp only [← hmem]
    constructor
    · rintro ((ht | ⟨a, ha, hkind⟩) | ha)
      · exact Or.inl ht
      -- An anchor that came with the first batch is still there in the end.
      · exact Or.inr ⟨a, hsecond.mem_of_mem hbetween ha, hkind⟩
      · exact Or.inr ha
    · rintro (ht | ha)
      · exact Or.inl (Or.inl ht)
      · exact Or.inr ha
  · have hcounted : (between.ingest second).2 = ((s.ingest first).1.ingest second).2 := by
      refine foldl_take_snd_congr hbetween (hs.ingest first) (fun t id => ?_) .zero second.spans
      rw [hfirst.span? hs, ingest_fst, span?_insertAll hs]
    rw [hcounted, ingest_append s hjoined]

end Absorbs

/-! Stores that come about -/

theorem Shows.ingest {s : Store} {m : PlaceMap} (h : s.Shows m) (b : Wire.Batch) :
    (s.ingest b).1.Shows ((Span.ofBatch b).foldl .put m) :=
  (h.perform (.ingest b)).1

theorem Shows.trackAll {s : Store} {m : PlaceMap} (h : s.Shows m) (traces : List TraceId) :
    (s.trackAll traces).Shows (traces.foldl .track m) := by
  induction traces generalizing s m with
  | nil => exact h
  | cons t traces ih => exact ih (h.track t)

end Store

/-! Uploads -/

namespace Upload

/-- The span announces the content, as far as its raw key is known. -/
def announces (u : Upload) (x : Span) : Bool := u.published.any fun p => isAnchor p.rawKey x

theorem mem_announcements {u : Upload} {x : Span} :
    x ∈ u.announcements ↔ x ∈ u.store.allSpans ∧ u.announces x = true := by
  unfold announcements announces
  cases u.published with
  | none => simp
  | some p => simp [mem_anchors]

theorem absorbs_ingest {u : Upload} (hopen : u.frozen = false) (b : Wire.Batch) :
    Store.Absorbs u.announces u.store b (u.ingest b).1.store := by
  rw [ingest_fst, hopen, if_neg Bool.false_ne_true]
  refine ⟨_, fun t => ?_, derive_store _⟩
  simp only [List.mem_map, mem_announcements, and_assoc]
  rfl

theorem announces_ingest (u : Upload) (b : Wire.Batch) : (u.ingest b).1.announces = u.announces := by
  unfold announces
  rw [published_ingest]

theorem frozen_ingest (u : Upload) (b : Wire.Batch) : (u.ingest b).1.frozen = u.frozen :=
  @frozen_step u (.ingest b) nofun

theorem exists_shows_step {u : Upload} (h : ∃ m, u.store.Shows m) (op : Op) :
    ∃ m, (u.step op).store.Shows m := by
  obtain ⟨m, hm⟩ := h
  cases op with
  | ingest b =>
      change ∃ m, (u.ingest b).1.store.Shows m
      rw [ingest_fst]
      split
      · exact ⟨m, hm⟩
      · rw [derive_store]
        exact ⟨_, (hm.ingest b).trackAll _⟩
  | publish contentId rawKey =>
      change ∃ m, (u.publish contentId rawKey).store.Shows m
      unfold Upload.publish
      split
      · exact ⟨m, hm⟩
      · rw [derive_store]
        exact ⟨_, hm.trackAll _⟩
  | fail error => exact ⟨m, hm⟩
  | freeze => exact ⟨_, hm.discard⟩

theorem exists_shows_run {u : Upload} (h : ∃ m, u.store.Shows m) (ops : List Op) :
    ∃ m, (u.run ops).store.Shows m := by
  induction ops generalizing u with
  | nil => exact h
  | cons op ops ih => exact ih (exists_shows_step h op)

/-- The uploads are the same but for the order in their stores. -/
structure Alike (u v : Upload) : Prop where
  fields : { u with store := v.store } = v
  store : u.store.Alike v.store

/-- A batch changes nothing but the store and what is derived from it. -/
theorem ingest_underived (u : Upload) (b : Wire.Batch) (v : Upload) :
    { (u.ingest b).1 with store := v.store, add := v.add, provide := v.provide, populated := v.populated } =
      { u with store := v.store, add := v.add, provide := v.provide, populated := v.populated } := by
  unfold ingest
  split
  · rfl
  · unfold derive
    cases u.published <;> simp

theorem Derived.ingest {u : Upload} (h : u.Derived) (b : Wire.Batch) : (u.ingest b).1.Derived :=
  h.step (.ingest b)

section Agree

variable {u v : Upload} (hu : u.Derived) (hv : v.Derived) (htrace : u.addTrace = v.addTrace)
  (hpublished : u.published = v.published)

include hu hv htrace hpublished

/-- What an upload shows of its store it shows alike of the same spans in the same tracked traces. -/
theorem Derived.agree (htracked : ∀ t, u.store.isTracked t = true ↔ v.store.isTracked t = true)
    (hspans : ∀ x, x ∈ u.store.allSpans ↔ x ∈ v.store.allSpans) :
    u.add = v.add ∧ u.provide = v.provide := by
  constructor
  · rw [hu.add, hv.add, htrace]
    exact Store.traceInterval?_congr hu.store hv.store htracked hspans v.addTrace
  · rw [hu.provide, hv.provide, hpublished]
    cases hp : v.published with
    | none => rfl
    | some p =>
        exact provideOf_congr_of_spans hu.store hv.store (hu.anchorsTracked p (hpublished.trans hp))
          (hv.anchorsTracked p hp) hspans

/-- With more spans in more tracked traces, no interval is lost. -/
theorem Derived.isSome_of_subset
    (htracked : ∀ t, u.store.isTracked t = true → v.store.isTracked t = true)
    (hspans : ∀ x ∈ u.store.allSpans, x ∈ v.store.allSpans)
    (h : (u.add.isSome && u.provide.isSome) = true) : (v.add.isSome && v.provide.isSome) = true := by
  obtain ⟨hadd, hprovide⟩ := Bool.and_eq_true_iff.mp h
  rw [hu.add, Store.traceInterval?_isSome_iff hu.store] at hadd
  obtain ⟨ht, x, hx, hxt⟩ := hadd
  have hadd' : v.add.isSome = true := by
    rw [hv.add, Store.traceInterval?_isSome_iff hv.store, ← htrace]
    exact ⟨htracked _ ht, x, hspans x hx, hxt⟩
  have hprovide' : v.provide.isSome = true := by
    cases hp : u.published with
    | none => simp [hu.provide, hp] at hprovide
    | some p =>
        have hpv := hpublished.symm.trans hp
        rw [hu.provide, hp, Option.bind_some, provideOf_isSome_iff hu.store (hu.anchorsTracked p hp)] at hprovide
        obtain ⟨a, ha⟩ := hprovide
        obtain ⟨ha, hanchor⟩ := mem_anchors.mp ha
        rw [hv.provide, hpv, Option.bind_some, provideOf_isSome_iff hv.store (hv.anchorsTracked p hpv)]
        exact ⟨a, mem_anchors.mpr ⟨hspans a ha, hanchor⟩⟩
  rw [hadd', hprovide']
  rfl

end Agree

theorem populated_ingest {u : Upload} (hopen : u.frozen = false) (b : Wire.Batch) :
    (u.ingest b).1.populated =
      (u.populated || ((u.ingest b).1.add.isSome && (u.ingest b).1.provide.isSome)) := by
  rw [ingest_fst, hopen, if_neg Bool.false_ne_true, derive_populated]

/-- An interval that was known between two batches is known after both, so that the flag is the one derived
last. -/
theorem Derived.populated_ingest_ingest {u : Upload} (h : u.Derived) (hopen : u.frozen = false)
    (first second : Wire.Batch) :
    ((u.ingest first).1.ingest second).1.populated =
      (u.populated || (((u.ingest first).1.ingest second).1.add.isSome &&
        ((u.ingest first).1.ingest second).1.provide.isSome)) := by
  have hopen' : (u.ingest first).1.frozen = false := (frozen_ingest u first).trans hopen
  have hbetween : (u.ingest first).1.Derived := h.ingest first
  have habsorbs := absorbs_ingest hopen' second
  have hkept := hbetween.isSome_of_subset (hbetween.ingest second) (addTrace_step _ (.ingest second)).symm
    (published_ingest _ second).symm
    (fun t ht => (habsorbs.isTracked_iff hbetween.store t).mpr (Or.inl ht))
    fun x hx => habsorbs.mem_of_mem hbetween.store hx
  rw [populated_ingest hopen', populated_ingest hopen]
  cases hset : (u.ingest first).1.add.isSome && (u.ingest first).1.provide.isSome with
  | false => rw [Bool.or_false]
  | true => rw [hkept hset, Bool.or_true, Bool.or_true]

theorem ingest_snd {u : Upload} (hopen : u.frozen = false) (b : Wire.Batch) :
    (u.ingest b).2 = (u.store.ingest b).2 := by
  rw [ingest, hopen, if_neg Bool.false_ne_true]

/-- Two batches, and one of their spans, leave the same upload and are counted the same. -/
theorem Derived.rebatched {u : Upload} (h : u.Derived) (hshows : ∃ m, u.store.Shows m)
    {first second joined : Wire.Batch} (hjoined : joined.spans = first.spans ++ second.spans) :
    ((u.ingest first).1.ingest second).1.Alike (u.ingest joined).1 ∧
      (u.ingest first).2 + ((u.ingest first).1.ingest second).2 = (u.ingest joined).2 := by
  cases hfrozen : u.frozen with
  | true =>
      have hignored (b : Wire.Batch) : u.ingest b = (u, .zero) := if_pos hfrozen
      simp only [hignored]
      exact ⟨⟨rfl, .refl _⟩, rfl⟩
  | false =>
      have hfrozen₁ : (u.ingest first).1.frozen = false := (frozen_ingest u first).trans hfrozen
      have hfirst := absorbs_ingest hfrozen first
      have hsecond := absorbs_ingest hfrozen₁ second
      rw [announces_ingest] at hsecond
      obtain ⟨hplaces, htracked, hcounted⟩ :=
        hfirst.rebatched h.store hsecond (absorbs_ingest hfrozen joined) hjoined
      have hbetween : (u.ingest first).1.Derived := h.ingest first
      have hsplit : ((u.ingest first).1.ingest second).1.Derived := hbetween.ingest second
      have hwhole : (u.ingest joined).1.Derived := h.ingest joined
      have hspans (x : Span) : x ∈ ((u.ingest first).1.ingest second).1.store.allSpans ↔
          x ∈ (u.ingest joined).1.store.allSpans := by
        rw [Store.mem_allSpans_iff hsplit.store, Store.mem_allSpans_iff hwhole.store, hplaces]
      have htrace (v : Upload) (b : Wire.Batch) : (v.ingest b).1.addTrace = v.addTrace :=
        addTrace_step v (.ingest b)
      obtain ⟨hadd, hprovide⟩ := hsplit.agree hwhole (by simp only [htrace]) (by simp only [published_ingest])
        htracked hspans
      have hpopulated : ((u.ingest first).1.ingest second).1.populated = (u.ingest joined).1.populated := by
        rw [h.populated_ingest_ingest hfrozen, populated_ingest hfrozen joined, hadd, hprovide]
      obtain ⟨m, hm⟩ := exists_shows_step (exists_shows_step hshows (.ingest first)) (.ingest second)
      obtain ⟨m', hm'⟩ := exists_shows_step hshows (.ingest joined)
      refine ⟨⟨?_, hm.alike hm' hplaces htracked⟩, ?_⟩
      · have hrest := (ingest_underived (u.ingest first).1 second (u.ingest joined).1).trans
          ((ingest_underived u first _).trans (ingest_underived u joined _).symm)
        rw [hadd, hprovide, hpopulated]
        exact hrest
      · simp only [ingest_snd hfrozen, ingest_snd hfrozen₁]
        exact hcounted

end Upload

namespace Download

/-- The downloads are the same but for the order in their stores; of queries to an index that are tied, each
may show another, with the same start. -/
structure Alike (d e : Download) : Prop where
  fields : { d with store := e.store, indexQuery := e.indexQuery } = e
  indexStart : d.indexQuery.map (·.start) = e.indexQuery.map (·.start)
  indexQuery : Untied e.contentId e.store.allSpans → d.indexQuery = e.indexQuery
  store : d.store.Alike e.store

theorem absorbs_ingest {d : Download} (hopen : d.frozen = false) (b : Wire.Batch) :
    Store.Absorbs (isAnchor d.contentId) d.store b (d.ingest b).1.store := by
  rw [ingest_fst, hopen, if_neg Bool.false_ne_true]
  refine ⟨_, fun t => ?_, derive_store _⟩
  simp only [mem_searchTraces, mem_anchors, and_assoc]

theorem frozen_ingest (d : Download) (b : Wire.Batch) : (d.ingest b).1.frozen = d.frozen :=
  @frozen_step d (.ingest b) nofun

theorem exists_shows_step {d : Download} (h : ∃ m, d.store.Shows m) (op : Op) :
    ∃ m, (d.step op).store.Shows m := by
  obtain ⟨m, hm⟩ := h
  cases op with
  | ingest b =>
      change ∃ m, (d.ingest b).1.store.Shows m
      rw [ingest_fst]
      split
      · exact ⟨m, hm⟩
      · rw [derive_store]
        exact ⟨_, (hm.ingest b).trackAll _⟩
  | finish t => exact ⟨m, hm⟩
  | fail error => exact ⟨m, hm⟩
  | freeze => exact ⟨_, hm.discard⟩

theorem exists_shows_run {d : Download} (h : ∃ m, d.store.Shows m) (ops : List Op) :
    ∃ m, (d.run ops).store.Shows m := by
  induction ops generalizing d with
  | nil => exact h
  | cons op ops ih => exact ih (exists_shows_step h op)

/-- A batch changes nothing but the store and what is derived from it. -/
theorem ingest_underived (d : Download) (b : Wire.Batch) (e : Download) :
    { (d.ingest b).1 with
      store := e.store, providers := e.providers, idleBroadcast := e.idleBroadcast
      indexQuery := e.indexQuery, firstBlock := e.firstBlock, discovery := e.discovery, done := e.done } =
    { d with
      store := e.store, providers := e.providers, idleBroadcast := e.idleBroadcast
      indexQuery := e.indexQuery, firstBlock := e.firstBlock, discovery := e.discovery, done := e.done } := by
  unfold ingest
  split
  · rfl
  · simp only [derive]

theorem ingest_snd {d : Download} (hopen : d.frozen = false) (b : Wire.Batch) :
    (d.ingest b).2 = (d.store.ingest b).2 := by
  rw [ingest, hopen, if_neg Bool.false_ne_true]

/-- Two batches, and one of their spans, leave the same download and are counted the same. -/
theorem Settled.rebatched {d : Download} (h : d.Settled) (hshows : ∃ m, d.store.Shows m)
    {first second joined : Wire.Batch} (hjoined : joined.spans = first.spans ++ second.spans) :
    ((d.ingest first).1.ingest second).1.Alike (d.ingest joined).1 ∧
      (d.ingest first).2 + ((d.ingest first).1.ingest second).2 = (d.ingest joined).2 := by
  cases hfrozen : d.frozen with
  | true =>
      have hignored (b : Wire.Batch) : d.ingest b = (d, .zero) := if_pos hfrozen
      simp only [hignored]
      exact ⟨⟨rfl, rfl, fun _ => rfl, .refl _⟩, rfl⟩
  | false =>
      have hfrozen₁ : (d.ingest first).1.frozen = false := (frozen_ingest d first).trans hfrozen
      obtain ⟨hid, hcat⟩ : (d.ingest first).1.contentId = d.contentId ∧ (d.ingest first).1.catTrace = d.catTrace :=
        request_step d (.ingest first)
      obtain ⟨hid₂, hcat₂⟩ := request_step (d.ingest first).1 (.ingest second)
      obtain ⟨hidw, hcatw⟩ := request_step d (.ingest joined)
      have hfirst := absorbs_ingest hfrozen first
      have hsecond := absorbs_ingest hfrozen₁ second
      rw [hid] at hsecond
      obtain ⟨hplaces, htracked, hcounted⟩ :=
        hfirst.rebatched h.store hsecond (absorbs_ingest hfrozen joined) hjoined
      have hsplit : ((d.ingest first).1.ingest second).1.Settled := (h.ingest first).ingest second
      have hwhole : (d.ingest joined).1.Settled := h.ingest joined
      have hspans (x : Span) : x ∈ ((d.ingest first).1.ingest second).1.store.allSpans ↔
          x ∈ (d.ingest joined).1.store.allSpans := by
        rw [Store.mem_allSpans_iff hsplit.store, Store.mem_allSpans_iff hwhole.store, hplaces]
      have hrequest : ((d.ingest first).1.ingest second).1.contentId = (d.ingest joined).1.contentId ∧
          ((d.ingest first).1.ingest second).1.catTrace = (d.ingest joined).1.catTrace :=
        ⟨hid₂.trans (hid.trans hidw.symm), hcat₂.trans (hcat.trans hcatw.symm)⟩
      obtain ⟨hproviders, hidle, hstart, hblock, hdiscovery, hdone, -⟩ :=
        hsplit.agree_but_for_ties hwhole hrequest hspans
      obtain ⟨m, hm⟩ := exists_shows_step (exists_shows_step hshows (.ingest first)) (.ingest second)
      obtain ⟨m', hm'⟩ := exists_shows_step hshows (.ingest joined)
      refine ⟨⟨?_, hstart, fun huntied => ?_, hm.alike hm' hplaces htracked⟩, ?_⟩
      · have hrest := (ingest_underived (d.ingest first).1 second (d.ingest joined).1).trans
          ((ingest_underived d first _).trans (ingest_underived d joined _).symm)
        rw [hproviders, hidle, hblock, hdiscovery, hdone]
        exact hrest
      · have huntied' := huntied.congr fun x => (hspans x).symm
        exact (hsplit.agree hwhole hrequest hspans (hrequest.1 ▸ huntied')).2.2.1
      · simp only [ingest_snd hfrozen, ingest_snd hfrozen₁]
        exact hcounted

end Download

/-- Any upload and any download that came about by any operations are left the same by two batches and by one that
holds the spans of the first and then those of the second, however it nests them, and what is counted adds up.
This holds whatever the reports say of a place that is taken, and also once the measurement is frozen. -/
theorem measurements_rebatched (contentId : String) (catTrace addTrace : TraceId) (start fileSize : Nat)
    (ops : List Download.Op) (uploadOps : List Upload.Op) (first second joined : Wire.Batch)
    (hjoined : joined.spans = first.spans ++ second.spans) :
    let d := (Download.ofContent contentId catTrace start).run ops
    let u := (Upload.start addTrace fileSize).run uploadOps
    (((u.ingest first).1.ingest second).1.Alike (u.ingest joined).1 ∧
        (u.ingest first).2 + ((u.ingest first).1.ingest second).2 = (u.ingest joined).2) ∧
      ((d.ingest first).1.ingest second).1.Alike (d.ingest joined).1 ∧
        (d.ingest first).2 + ((d.ingest first).1.ingest second).2 = (d.ingest joined).2 := by
  intro d u
  have hu : u.Derived := (Upload.Derived.start addTrace fileSize).run uploadOps
  have hd : d.Settled := (Download.Settled.ofContent contentId catTrace start).run ops
  exact ⟨hu.rebatched (Upload.exists_shows_run ⟨_, .tracking [addTrace]⟩ uploadOps) hjoined,
    hd.rebatched (Download.exists_shows_run ⟨_, .tracking [catTrace]⟩ ops) hjoined⟩

/-- A part of an announcement and of a search, and a query to an index, that wait for their anchors. -/
def waitingReports : Wire.Batch :=
  .ofSpans [.ofNumbers 9 2 "child" 35 50 [] [], .ofNumbers 9 5 Names.indexQuery 40 45 [] []]

/-- The anchor of the announcement, a place of another trace, and a report that is no span. -/
def earlierReports : List Wire.Span :=
  [.ofNumbers 7 1 "add" 10 20 [] [],
    .ofNumbers 9 1 Names.provide 30 40 [⟨Names.provideKey, some (.string "raw")⟩] [],
    .ofNumbers 8 1 "other" 1 2 [] [], .ofNumbers 0 1 "add" 1 2 [] []]

/-- Reports that come to taken places, one of them an announcement, a new span, and the anchor of the search. -/
def laterReports : List Wire.Span :=
  [.ofNumbers 8 1 Names.provide 5 6 [⟨Names.provideKey, some (.string "raw")⟩] [],
    .ofNumbers 9 2 "child" 60 70 [] [], .ofNumbers 9 3 "child" 41 90 [] [],
    .ofNumbers 9 4 Names.findProviders 20 80 [⟨Names.findProvidersCid, some (.string "cid")⟩] []]

theorem conflicting_reports_rebatched :
    let d := (Download.ofContent "cid" (.ofNat 7) 0).run [.ingest waitingReports]
    let u := (Upload.start (.ofNat 7) 100).run [.publish "cid" "raw", .ingest waitingReports]
    let joined : Wire.Batch := .nested [[earlierReports], [laterReports.take 1, laterReports.drop 1]]
    let split := (u.ingest (.ofSpans earlierReports)).1.ingest (.ofSpans laterReports)
    let split' := (d.ingest (.ofSpans earlierReports)).1.ingest (.ofSpans laterReports)
    split.1.Alike (u.ingest joined).1 ∧ split.1.provide = some ⟨.ofNat 9, ⟨20, 90⟩⟩ ∧
      (u.ingest (.ofSpans earlierReports)).2 + split.2 = ⟨5, 2, 1⟩ ∧
      split'.1.Alike (d.ingest joined).1 ∧ split'.1.indexQuery = (d.ingest joined).1.indexQuery ∧
      split'.1.indexQuery = some ⟨40, 45, none⟩ := by
  intro d u joined split split'
  obtain ⟨⟨hu, -⟩, hd, -⟩ := measurements_rebatched "cid" (.ofNat 7) (.ofNat 7) 0 100 [.ingest waitingReports]
    [.publish "cid" "raw", .ingest waitingReports] (.ofSpans earlierReports) (.ofSpans laterReports) joined rfl
  exact ⟨hu, by decide, by decide, hd, hd.indexQuery (by decide), by decide⟩

end ContentProbe
