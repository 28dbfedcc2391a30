import ContentProbe.Proofs.Download.Runs
import ContentProbe.Proofs.Upload.Runs

/-!
Measurements only grow. Each field is derived again from the store whenever a batch comes, so nothing in the
fields themselves keeps an earlier value. But no batch takes a span out of the store, and more spans hold more
anchors: a least time of more spans is no later, an interval of more spans is no shorter, and among more
sightings there are no fewer peers.
-/

namespace ContentProbe

/-- A time that was known stays known, and never becomes later. -/
def NoLater (before after : Option Nat) : Prop := ∀ t ∈ before, ∃ t' ∈ after, t' ≤ t

/-- An interval that was known stays known, and only becomes wider. -/
def Widens (before after : Option Interval) : Prop :=
  ∀ i ∈ before, ∃ j ∈ after, j.start ≤ i.start ∧ i.finish ≤ j.finish

theorem NoLater.refl (t : Option Nat) : NoLater t t := fun t ht => ⟨t, ht, Nat.le_refl t⟩

theorem NoLater.trans {t₁ t₂ t₃ : Option Nat} (h : NoLater t₁ t₂) (h' : NoLater t₂ t₃) : NoLater t₁ t₃ := by
  intro t ht
  obtain ⟨t', ht', hle⟩ := h t ht
  obtain ⟨t'', ht'', hle'⟩ := h' t' ht'
  exact ⟨t'', ht'', Nat.le_trans hle' hle⟩

theorem Widens.refl (i : Option Interval) : Widens i i :=
  fun i hi => ⟨i, hi, Nat.le_refl _, Nat.le_refl _⟩

theorem Widens.trans {i₁ i₂ i₃ : Option Interval} (h : Widens i₁ i₂) (h' : Widens i₂ i₃) : Widens i₁ i₃ := by
  intro i hi
  obtain ⟨j, hj, hstart, hfinish⟩ := h i hi
  obtain ⟨k, hk, hstart', hfinish'⟩ := h' j hj
  exact ⟨k, hk, Nat.le_trans hstart' hstart, Nat.le_trans hfinish hfinish'⟩

/-- What is known stays known. -/
theorem Widens.isSome {before after : Option Interval} (h : Widens before after)
    (hsome : before.isSome = true) : after.isSome = true := by
  obtain ⟨i, hi⟩ := Option.isSome_iff_exists.mp hsome
  obtain ⟨j, hj, -⟩ := h i hi
  exact Option.isSome_iff_exists.mpr ⟨j, hj⟩

/-! Readings of more spans -/

theorem min?_noLater {xs ys : List Nat} (hmem : ∀ x ∈ xs, x ∈ ys) : NoLater xs.min? ys.min? := by
  intro t ht
  obtain ⟨htmem, -⟩ := List.min?_eq_some_iff.mp ht
  have hys : t ∈ ys := hmem t htmem
  obtain ⟨least, hleast⟩ := Option.ne_none_iff_exists'.mp fun hnone : ys.min? = none => by
    simp [List.min?_eq_none_iff.mp hnone] at hys
  exact ⟨least, hleast, (List.min?_eq_some_iff.mp hleast).2 t hys⟩

theorem Interval.ofSpans?_widens {xs ys : List Span} (hmem : ∀ x ∈ xs, x ∈ ys) :
    Widens (ofSpans? xs) (ofSpans? ys) := by
  intro i hi
  obtain ⟨hstart, hfinish⟩ := ofSpans?_eq_some_iff.mp hi
  cases hj : ofSpans? ys with
  | none =>
      have hys : ys = [] := ofSpans?_eq_none_iff.mp hj
      have hxs : xs = [] := List.eq_nil_iff_forall_not_mem.mpr fun x hx => by
        simpa [hys] using hmem x hx
      simp [hxs] at hstart
  | some j =>
      obtain ⟨hstart', hfinish'⟩ := ofSpans?_eq_some_iff.mp hj
      obtain ⟨first, hfirst, hfirstStart⟩ := List.mem_map.mp (List.min?_eq_some_iff.mp hstart).1
      obtain ⟨last, hlast, hlastFinish⟩ := List.mem_map.mp (List.max?_eq_some_iff.mp hfinish).1
      refine ⟨j, rfl, ?_, ?_⟩
      · rw [← hfirstStart]
        exact (List.min?_eq_some_iff.mp hstart').2 _ (List.mem_map_of_mem (hmem first hfirst))
      · rw [← hlastFinish]
        exact (List.max?_eq_some_iff.mp hfinish').2 _ (List.mem_map_of_mem (hmem last hlast))

/-- Among more elements, a time that follows the order is no later on the first one. -/
theorem firstBy?_noLater {α κ : Type} [LinearOrder κ] {before : α → α → Bool} {key : α → κ} {f : α → Nat}
    (hkey : OrdersBy before key) (hf : ∀ a b, key a ≤ key b → f a ≤ f b) {xs ys : List α}
    (hmem : ∀ x ∈ xs, ∃ y ∈ ys, f y ≤ f x) :
    NoLater ((firstBy? before xs).map f) ((firstBy? before ys).map f) := by
  intro t ht
  obtain ⟨a, ha, rfl⟩ := Option.map_eq_some_iff.mp ht
  obtain ⟨y, hy, hle⟩ := hmem a (isFirst_of_firstBy? hkey ha).1
  cases hb : firstBy? before ys with
  | none => simp [(firstBy?_eq_none_iff before ys).mp hb] at hy
  | some b =>
      exact ⟨f b, rfl, Nat.le_trans (hf b y ((isFirst_of_firstBy? hkey hb).2 y hy)) hle⟩

namespace Download

section More

variable {xs ys : List Span} (hmem : ∀ x ∈ xs, x ∈ ys)

include hmem

theorem sightings_subset (event : String) : ∀ s ∈ sightings event xs, s ∈ sightings event ys := by
  intro s hs
  obtain ⟨x, hx, e, he, hseen⟩ := mem_sightings.mp hs
  exact mem_sightings.mpr ⟨x, hmem x hx, e, he, hseen⟩

theorem peersOf_subset (event : String) :
    ∀ peer ∈ peersOf (sightings event xs), peer ∈ peersOf (sightings event ys) := by
  intro peer hpeer
  rw [peersOf, List.mem_eraseDups] at hpeer ⊢
  exact List.map_subset _ (sightings_subset hmem event) hpeer

theorem firstSeen?_noLater (event : String) (peer : String) :
    NoLater (firstSeen? (sightings event xs) peer) (firstSeen? (sightings event ys) peer) := by
  apply min?_noLater
  intro t ht
  obtain ⟨s, hs, rfl⟩ := List.mem_map.mp ht
  obtain ⟨hs, hpeer⟩ := List.mem_filter.mp hs
  exact List.mem_map.mpr ⟨s, List.mem_filter.mpr ⟨sightings_subset hmem event s hs, hpeer⟩, rfl⟩

/-- More anchors tell of no fewer providers, and of no later first connection. -/
theorem providersOf_grows :
    (providersOf xs).found ≤ (providersOf ys).found ∧
      (providersOf xs).connected ≤ (providersOf ys).connected ∧
      NoLater ((providersOf xs).first.map (·.connectedAt)) ((providersOf ys).first.map (·.connectedAt)) := by
  have hfound := peersOf_subset hmem Names.foundProvider
  have hconnected := peersOf_subset hmem Names.connectedToProvider
  have hpeers : ∀ peer ∈ (connections (sightings Names.foundProvider xs)
        (sightings Names.connectedToProvider xs)).map (·.peer),
      peer ∈ (connections (sightings Names.foundProvider ys)
        (sightings Names.connectedToProvider ys)).map (·.peer) := by
    intro peer hpeer
    obtain ⟨hpeerFound, hpeerConnected⟩ := mem_peers_connections.mp hpeer
    exact mem_peers_connections.mpr ⟨hfound peer hpeerFound, hconnected peer hpeerConnected⟩
  simp only [providersOf_eq]
  refine ⟨(List.subperm_of_subset (nodup_eraseDups _) hfound).length_le, ?_, ?_⟩
  · simpa using (List.subperm_of_subset (nodup_peers_connections _ _) hpeers).length_le
  · apply firstBy?_noLater providerBefore_ordersBy
    · intro a b hle
      rcases Prod.Lex.toLex_le_toLex.mp hle with hlt | ⟨heq, -⟩
      · exact hlt.le
      · exact heq.le
    · intro p hp
      -- The peer is still among the connections, with a first connection that is no later.
      obtain ⟨q, hq, hpeer⟩ := List.mem_map.mp (hpeers p.peer (List.mem_map_of_mem hp))
      obtain ⟨-, -, hpTime⟩ := mem_connections.mp hp
      obtain ⟨-, -, hqTime⟩ := mem_connections.mp hq
      rw [hpeer] at hqTime
      obtain ⟨t, ht, hle⟩ := firstSeen?_noLater hmem Names.connectedToProvider p.peer _ hpTime
      obtain rfl := Option.some.inj (hqTime.symm.trans ht)
      exact ⟨q, hq, hle⟩

theorem indexQueryOf_noLater :
    NoLater ((indexQueryOf xs).map (·.start)) ((indexQueryOf ys).map (·.start)) := by
  simp only [indexQueryOf, Option.map_map]
  apply firstBy?_noLater (f := fun q : Span => q.start) queryBefore_ordersBy
  · intro a b hle
    rcases Prod.Lex.toLex_le_toLex.mp hle with hlt | ⟨heq, -⟩
    · exact hlt.le
    · exact heq.le
  · intro q hq
    obtain ⟨hq, hname⟩ := List.mem_filter.mp hq
    exact ⟨q, List.mem_filter.mpr ⟨hmem q hq, hname⟩, Nat.le_refl _⟩

theorem earliestEvent?_noLater (span event : String) :
    NoLater (earliestEvent? span event xs) (earliestEvent? span event ys) := by
  apply min?_noLater
  intro t ht
  simp only [List.mem_map, List.mem_flatMap, List.mem_filter] at ht ⊢
  obtain ⟨e, ⟨x, ⟨hx, hname⟩, he⟩, rfl⟩ := ht
  exact ⟨e, ⟨x, ⟨hmem x hx, hname⟩, he⟩, rfl⟩

end More

/-- A later download knows all that an earlier one knew, and no time of it is later. -/
structure Grows (d e : Download) : Prop where
  done : d.done = true → e.done = true
  discovery : d.discovery.isSome = true → e.discovery.isSome = true
  found : d.providers.found ≤ e.providers.found
  connected : d.providers.connected ≤ e.providers.connected
  firstConnected : NoLater (d.providers.first.map (·.connectedAt)) (e.providers.first.map (·.connectedAt))
  firstBlock : NoLater d.firstBlock e.firstBlock
  idleBroadcast : NoLater d.idleBroadcast e.idleBroadcast
  indexStart : NoLater (d.indexQuery.map (·.start)) (e.indexQuery.map (·.start))

theorem Grows.refl (d : Download) : d.Grows d :=
  ⟨id, id, Nat.le_refl _, Nat.le_refl _, .refl _, .refl _, .refl _, .refl _⟩

theorem Grows.trans {d₁ d₂ d₃ : Download} (h : d₁.Grows d₂) (h' : d₂.Grows d₃) : d₁.Grows d₃ where
  done hd := h'.done (h.done hd)
  discovery hd := h'.discovery (h.discovery hd)
  found := Nat.le_trans h.found h'.found
  connected := Nat.le_trans h.connected h'.connected
  firstConnected := h.firstConnected.trans h'.firstConnected
  firstBlock := h.firstBlock.trans h'.firstBlock
  idleBroadcast := h.idleBroadcast.trans h'.idleBroadcast
  indexStart := h.indexStart.trans h'.indexStart

/-- Of settled downloads of one request, the one that holds more spans knows more. -/
theorem Settled.grows {d e : Download} (hd : d.Settled) (he : e.Settled)
    (hrequest : e.contentId = d.contentId ∧ e.catTrace = d.catTrace)
    (hspans : ∀ x ∈ d.store.allSpans, x ∈ e.store.allSpans) : d.Grows e := by
  obtain ⟨hid, htrace⟩ := hrequest
  have hanchors (a : Span) (ha : a ∈ anchors d.contentId d.store) : a ∈ anchors e.contentId e.store := by
    obtain ⟨hx, hanchor⟩ := mem_anchors.mp ha
    rw [hid]
    exact mem_anchors.mpr ⟨hspans a hx, hanchor⟩
  have hcat (x : Span) (hx : x ∈ d.catSpans) : x ∈ e.catSpans := by
    obtain ⟨ht, hx⟩ := (mem_catSpans hd.store hd.catTracked).mp hx
    exact (mem_catSpans he.store he.catTracked).mpr ⟨ht.trans htrace.symm, hspans x hx⟩
  have hdone (h : d.done = true) : e.done = true := by
    rw [hd.done, List.any_eq_true] at h
    obtain ⟨x, hx, hname⟩ := h
    rw [he.done, List.any_eq_true]
    exact ⟨x, hcat x hx, hname⟩
  obtain ⟨hfound, hconnected, hfirst⟩ := providersOf_grows hanchors
  obtain ⟨searched, hsearched, hquery⟩ := hd.indexQuery
  obtain ⟨searched', hsearched', hquery'⟩ := he.indexQuery
  refine ⟨hdone, fun h => ?_, ?_, ?_, ?_, ?_, ?_, ?_⟩
  · have hdDone : d.done = true := by
      by_contra hno
      simp [hd.discovery, hno] at h
    simp [he.discovery, hdone hdDone]
  · rw [hd.providers, he.providers]
    exact hfound
  · rw [hd.providers, he.providers]
    exact hconnected
  · rw [hd.providers, he.providers]
    exact hfirst
  · rw [hd.firstBlock, he.firstBlock]
    exact earliestEvent?_noLater hcat _ _
  · rw [hd.idleBroadcast, he.idleBroadcast]
    exact earliestEvent?_noLater hcat _ _
  · rw [hquery, hquery']
    apply indexQueryOf_noLater
    intro x hx
    obtain ⟨hx, a, ha, hat⟩ := (hsearched x).mp hx
    exact (hsearched' x).mpr ⟨hspans x hx, a, hanchors a ha, hat⟩

theorem Settled.grows_step {d : Download} (h : d.Settled) (op : Op) : d.Grows (d.step op) := by
  cases op with
  | ingest b =>
      refine h.grows (h.ingest b) (request_step d (.ingest b)) fun x hx => ?_
      change x ∈ (d.ingest b).1.store.allSpans
      rw [ingest_fst]
      split
      · exact hx
      · rw [derive_store, Store.mem_allSpans_trackAll (h.store.ingest b)]
        exact Store.mem_allSpans_ingest h.store b hx
  | finish t => exact ⟨id, id, Nat.le_refl _, Nat.le_refl _, .refl _, .refl _, .refl _, .refl _⟩
  | fail error => exact ⟨id, id, Nat.le_refl _, Nat.le_refl _, .refl _, .refl _, .refl _, .refl _⟩
  | freeze => exact ⟨id, id, Nat.le_refl _, Nat.le_refl _, .refl _, .refl _, .refl _, .refl _⟩

theorem Settled.grows_run {d : Download} (h : d.Settled) (ops : List Op) : d.Grows (d.run ops) := by
  induction ops generalizing d with
  | nil => exact .refl d
  | cons op ops ih => exact (h.grows_step op).trans (ih (h.step op))

end Download

namespace Upload

/-- A later upload knows all that an earlier one knew, and its intervals are no shorter. -/
structure Grows (u v : Upload) : Prop where
  populated : u.populated = true → v.populated = true
  add : Widens u.add v.add
  provide : Widens (u.provide.map (·.interval)) (v.provide.map (·.interval))

theorem Grows.refl (u : Upload) : u.Grows u := ⟨id, .refl _, .refl _⟩

theorem Grows.trans {u₁ u₂ u₃ : Upload} (h : u₁.Grows u₂) (h' : u₂.Grows u₃) : u₁.Grows u₃ :=
  ⟨fun hu => h'.populated (h.populated hu), h.add.trans h'.add, h.provide.trans h'.provide⟩

theorem Settled.provide_interval {u : Upload} (h : u.Settled) {p : Published} (hp : u.published = some p) :
    u.provide.map (·.interval) = Interval.ofSpans? (provideSpans p.rawKey u.store) := by
  rw [h.provide, hp]
  exact (provideOf_parts h.store (h.anchorsTracked hp)).2

/-- Of settled uploads of one trace, the one that holds more spans and has not forgotten the content id knows
more. -/
theorem Settled.grows {u v : Upload} (hu : u.Settled) (hv : v.Settled) (htrace : v.addTrace = u.addTrace)
    (hpublished : ∀ p ∈ u.published, v.published = some p)
    (hspans : ∀ x ∈ u.store.allSpans, x ∈ v.store.allSpans) : u.Grows v := by
  have hadd : Widens u.add v.add := by
    rw [hu.add, hv.add, Store.traceInterval?_eq, Store.traceInterval?_eq, htrace]
    apply Interval.ofSpans?_widens
    intro x hx
    obtain ⟨-, ht, hx⟩ := (Store.mem_trace_iff hu.store).mp hx
    exact (Store.mem_trace_iff hv.store).mpr ⟨(hv.tracked _).mpr (Or.inl htrace.symm), ht, hspans x hx⟩
  have hprovide : Widens (u.provide.map (·.interval)) (v.provide.map (·.interval)) := by
    cases hp : u.published with
    | none =>
        intro i hi
        simp [hu.provide, hp] at hi
    | some p =>
        have hpv := hpublished p hp
        rw [hu.provide_interval hp, hv.provide_interval hpv]
        apply Interval.ofSpans?_widens
        intro x hx
        obtain ⟨hx, a, ha, hat⟩ := (mem_provideSpans hu.store (hu.anchorsTracked hp)).mp hx
        obtain ⟨ha, hanchor⟩ := mem_anchors.mp ha
        exact (mem_provideSpans hv.store (hv.anchorsTracked hpv)).mpr
          ⟨hspans x hx, a, mem_anchors.mpr ⟨hspans a ha, hanchor⟩, hat⟩
  refine ⟨fun hpopulated => ?_, hadd, hprovide⟩
  rw [hu.populated, Bool.and_eq_true] at hpopulated
  have hprovided := hprovide.isSome
  rw [Option.isSome_map, Option.isSome_map] at hprovided
  rw [hv.populated, hadd.isSome hpopulated.1, hprovided hpopulated.2]
  rfl

theorem Settled.grows_step {u : Upload} (h : u.Settled) (op : Op)
    (honce : u.published.toList.length + op.published?.toList.length ≤ 1) : u.Grows (u.step op) := by
  cases op with
  | ingest b =>
      refine h.grows (h.ingest b) (addTrace_step u (.ingest b)) ?_ fun x hx => ?_
      · intro p hp
        exact (published_ingest u b).trans hp
      · change x ∈ (u.ingest b).1.store.allSpans
        rw [ingest_fst]
        split
        · exact hx
        · rw [derive_store, Store.mem_allSpans_trackAll (h.store.ingest b)]
          exact Store.mem_allSpans_ingest h.store b hx
  | publish contentId rawKey =>
      have hnew : u.published = none := by
        cases hp : u.published with
        | none => rfl
        | some p => simp [hp, Op.published?] at honce
      refine h.grows (h.publish hnew contentId rawKey) (addTrace_step u (.publish contentId rawKey)) ?_
        fun x hx => ?_
      · simp [hnew]
      · change x ∈ (u.publish contentId rawKey).store.allSpans
        unfold Upload.publish
        split
        · exact hx
        · rw [derive_store]
          exact (Store.mem_allSpans_trackAll h.store _ x).mpr hx
  | fail error => exact ⟨id, .refl _, .refl _⟩
  | freeze => exact ⟨id, .refl _, .refl _⟩

theorem Settled.grows_run {u : Upload} (h : u.Settled) (ops : List Op)
    (honce : u.published.toList.length + (publications ops).length ≤ 1) : u.Grows (u.run ops) := by
  induction ops generalizing u with
  | nil => exact .refl u
  | cons op ops ih =>
      rw [length_publications_cons] at honce
      have hle := published_step_length u op
      exact (h.grows_step op (by omega)).trans (ih (h.step op (by omega)) (by omega))

end Upload

/-- Whatever operations follow, with whatever batches, a new download and a new upload that is told at most
one content id only come to know more. A request that was handled stays so, and its discovery is never forgotten;
providers do not become fewer; the first connection, the first block, the broadcast and the start of the index
query stay known and never become later; an upload that was complete stays so; and the intervals of the add
and of the announcement stay known and only become wider. -/
theorem measurements_grow (contentId : String) (catTrace addTrace : TraceId) (start fileSize : Nat)
    (ops later : List Download.Op) (uploadOps uploadLater : List Upload.Op)
    (honce : (Upload.publications (uploadOps ++ uploadLater)).length ≤ 1) :
    let d := Download.ofContent contentId catTrace start
    let u := Upload.start addTrace fileSize
    (d.run ops).Grows (d.run (ops ++ later)) ∧
      (u.run uploadOps).Grows (u.run (uploadOps ++ uploadLater)) := by
  intro d u
  have hd : (d.run ops).Settled := (Download.Settled.ofContent contentId catTrace start).run ops
  have hu : u.Settled := .start addTrace fileSize
  have htold : u.published.toList.length = 0 := rfl
  have hpublished := Upload.published_run_length u uploadOps
  rw [Upload.publications_append, List.length_append] at honce
  rw [Download.run_append, Upload.run_append]
  refine ⟨hd.grows_run later, ?_⟩
  exact (hu.run uploadOps (by omega)).grows_run uploadLater (by omega)

/-! Reports that disagree with earlier ones -/

/-- A report of the request and its announcement. -/
def firstReports : List Upload.Op :=
  [.ingest (.ofSpans [.ofNumbers 7 1 "add" 10 20 [] [],
      .ofNumbers 9 1 Names.provide 30 40 [⟨Names.provideKey, some (.string "raw")⟩] []]),
    .publish "cid" "raw"]

/-- The same places again, with shorter spans and another key, and one new place. -/
def conflictingReports : List Upload.Op :=
  [.ingest (.ofSpans [.ofNumbers 7 1 "add" 12 15 [] [],
      .ofNumbers 9 1 Names.provide 33 34 [⟨Names.provideKey, some (.string "other")⟩] [],
      .ofNumbers 9 2 "child" 35 50 [] []])]

theorem conflicting_reports_grow :
    let u := (Upload.start (.ofNat 7) 100).run firstReports
    let v := (Upload.start (.ofNat 7) 100).run (firstReports ++ conflictingReports)
    (Upload.publications (firstReports ++ conflictingReports)).length ≤ 1 ∧ u.Grows v ∧
      u.provide = some ⟨.ofNat 9, ⟨30, 40⟩⟩ ∧ v.provide = some ⟨.ofNat 9, ⟨30, 50⟩⟩ ∧
      v.add = some ⟨10, 20⟩ := by
  intro u v
  have honce : (Upload.publications (firstReports ++ conflictingReports)).length ≤ 1 := by decide
  obtain ⟨-, hgrows⟩ :=
    measurements_grow "cid" (.ofNat 7) (.ofNat 7) 0 100 [] [] firstReports conflictingReports honce
  exact ⟨honce, hgrows, by decide, by decide, by decide⟩

end ContentProbe
