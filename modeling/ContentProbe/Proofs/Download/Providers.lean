import ContentProbe.Proofs.Download.Runs
import ContentProbe.Proofs.Text.Ordering
import Mathlib.Data.Set.Card

/-!
The statistics of providers, said of the stored spans alone. The events on the anchors are two sets of pairs of
a peer and a time: when peers were found, and when they were connected to. The counts are sizes of sets of
peers, and the first provider is the least of the peers in both sets, by the time at which it was first
connected to and then by the bytes of its name. Nothing else that a download holds has a part in them.
-/

namespace ContentProbe.Download

open ContentProbe.Text

/-- The peers that events of a name speak of on the anchors among some spans, with the times of the events. -/
def sighted (contentId event : String) (spans : List Span) : Set (String × Nat) :=
  {s | ∃ x ∈ spans, isAnchor contentId x = true ∧ ∃ e ∈ x.events, e.name = event ∧
    e.attributes.string? Names.peer = some s.1 ∧ e.time = s.2}

/-- The statistics that sightings of found and of connected peers come to. The first provider was first found
and first connected to at its two times, and no other peer of both kinds was connected to before it, or at
the same time with a name of lower bytes. -/
structure Tells (found connected : Set (String × Nat)) (p : Providers) : Prop where
  finite : (Prod.fst '' found).Finite
  foundCount : p.found = (Prod.fst '' found).ncard
  connectedCount : p.connected = (Prod.fst '' found ∩ Prod.fst '' connected).ncard
  none_iff : p.first = none ↔ p.connected = 0
  first_iff : ∀ q, p.first = some q ↔
    IsLeast {t | (q.peer, t) ∈ found} q.foundAt ∧ IsLeast {t | (q.peer, t) ∈ connected} q.connectedAt ∧
      ∀ other ∈ Prod.fst '' found ∩ Prod.fst '' connected, ∀ t, IsLeast {t | (other, t) ∈ connected} t →
        q.connectedAt < t ∨ q.connectedAt = t ∧ utf8Bytes q.peer ≤ utf8Bytes other

/-- Connections to peers that were not found change nothing. -/
theorem Tells.eq {found found' connected connected' : Set (String × Nat)} {p p' : Providers}
    (h : Tells found connected p) (h' : Tells found' connected' p') (hfound : found = found')
    (hsame : ∀ s, s.1 ∈ Prod.fst '' found' → (s ∈ connected ↔ s ∈ connected')) : p = p' := by
  subst hfound
  have hpeers : Prod.fst '' found ∩ Prod.fst '' connected = Prod.fst '' found ∩ Prod.fst '' connected' := by
    ext peer
    simp only [Set.mem_inter_iff, and_congr_right_iff]
    intro hfound
    constructor
    · rintro ⟨s, hs, rfl⟩
      exact ⟨s, (hsame s hfound).mp hs, rfl⟩
    · rintro ⟨s, hs, rfl⟩
      exact ⟨s, (hsame s hfound).mpr hs, rfl⟩
  have htimes {peer : String} (hpeer : peer ∈ Prod.fst '' found) :
      {t | (peer, t) ∈ connected} = {t | (peer, t) ∈ connected'} := by
    ext t
    exact hsame (peer, t) hpeer
  have hfirst : p.first = p'.first := by
    apply Option.ext
    intro q
    rw [h.first_iff, h'.first_iff, hpeers, and_congr_right_iff]
    intro hfound
    rw [htimes ⟨_, hfound.1, rfl⟩, and_congr_right_iff]
    intro _
    refine forall₂_congr fun other hother => ?_
    rw [htimes hother.1]
  have hfound : p.found = p'.found := h.foundCount.trans h'.foundCount.symm
  have hconnected : p.connected = p'.connected := by rw [h.connectedCount, h'.connectedCount, hpeers]
  cases p
  cases p'
  exact Providers.mk.injEq .. ▸ ⟨hfound, hconnected, hfirst⟩

/-! Sightings as lists -/

theorem ncard_eq_length {α : Type} [DecidableEq α] {s : Set α} {xs : List α} (hxs : xs.Nodup)
    (hmem : ∀ x, x ∈ s ↔ x ∈ xs) : s.ncard = xs.length := by
  have hs : s = xs.toFinset := by
    ext x
    simp [hmem]
  rw [hs, Set.ncard_coe_finset, List.toFinset_card_of_nodup hxs]

theorem mem_peersOf {seen : List (String × Nat)} {peer : String} :
    peer ∈ peersOf seen ↔ peer ∈ Prod.fst '' {s | s ∈ seen} := by
  simp [peersOf]

theorem firstSeen?_eq_some_iff {seen : List (String × Nat)} {peer : String} {t : Nat} :
    firstSeen? seen peer = some t ↔ IsLeast {t | (peer, t) ∈ seen} t := by
  have hmem (t : Nat) : t ∈ (seen.filter (·.1 == peer)).map (·.2) ↔ (peer, t) ∈ seen := by
    simp only [List.mem_map, List.mem_filter, beq_iff_eq]
    constructor
    · rintro ⟨s, ⟨hs, rfl⟩, rfl⟩
      exact hs
    · intro hs
      exact ⟨(peer, t), ⟨hs, rfl⟩, rfl⟩
  rw [firstSeen?, List.min?_eq_some_iff, hmem]
  simp only [hmem]
  rfl

/-- The first of the connections, by its time and the bytes of its name. -/
theorem firstBy?_connections_iff {found connected : List (String × Nat)} {q : FirstProvider} :
    firstBy? providerBefore (connections found connected) = some q ↔
      q ∈ connections found connected ∧ ∀ r ∈ connections found connected,
        q.connectedAt < r.connectedAt ∨
          q.connectedAt = r.connectedAt ∧ utf8Bytes q.peer ≤ utf8Bytes r.peer := by
  have hfirst : firstBy? providerBefore (connections found connected) = some q ↔
      IsFirst (fun p => toLex (p.connectedAt, p.peer)) (connections found connected) q := by
    refine ⟨isFirst_of_firstBy? providerBefore_ordersBy, fun hq => ?_⟩
    cases hr : firstBy? providerBefore (connections found connected) with
    | none => exact absurd ((firstBy?_eq_none_iff _ _).mp hr ▸ hq.1) List.not_mem_nil
    | some r =>
        have hisFirst := isFirst_of_firstBy? providerBefore_ordersBy hr
        have hkey := (hq.2 r hisFirst.1).antisymm (hisFirst.2 q hq.1)
        rw [connection_eq hq.1 hisFirst.1 (Prod.mk.inj (toLex.injective hkey)).2]
  rw [hfirst, IsFirst]
  simp only [Prod.Lex.toLex_le_toLex, utf8Bytes_le_iff]

/-- What is read off lists of sightings is what they come to as sets. -/
theorem tells_connections (found connected : List (String × Nat)) :
    Tells {s | s ∈ found} {s | s ∈ connected}
      ⟨(peersOf found).length, (connections found connected).length,
        firstBy? providerBefore (connections found connected)⟩ := by
  have hboth (peer : String) :
      peer ∈ Prod.fst '' {s | s ∈ found} ∩ Prod.fst '' {s | s ∈ connected} ↔
        peer ∈ (connections found connected).map (·.peer) := by
    rw [mem_peers_connections, mem_peersOf, mem_peersOf, Set.mem_inter_iff]
  refine ⟨found.finite_toSet.image _, ?_, ?_, ?_, fun q => ?_⟩
  · exact (ncard_eq_length (nodup_eraseDups _) fun peer => mem_peersOf.symm).symm
  · rw [ncard_eq_length (nodup_peers_connections found connected) hboth, List.length_map]
  · rw [firstBy?_eq_none_iff, List.length_eq_zero_iff]
  · rw [firstBy?_connections_iff, mem_connections, firstSeen?_eq_some_iff, firstSeen?_eq_some_iff]
    constructor
    · rintro ⟨⟨-, hfound, hconnected⟩, hfirst⟩
      refine ⟨hfound, hconnected, fun other hother t ht => ?_⟩
      obtain ⟨r, hr, rfl⟩ := List.mem_map.mp ((hboth other).mp hother)
      obtain rfl : r.connectedAt = t := (firstSeen?_eq_some_iff.mp (mem_connections.mp hr).2.2).unique ht
      exact hfirst r hr
    · rintro ⟨hfound, hconnected, hfirst⟩
      refine ⟨⟨mem_peersOf.mpr ⟨_, hconnected.1, rfl⟩, hfound, hconnected⟩, fun r hr => ?_⟩
      exact hfirst r.peer ((hboth r.peer).mpr (List.mem_map_of_mem hr)) r.connectedAt
        (firstSeen?_eq_some_iff.mp (mem_connections.mp hr).2.2)

/-! A download -/

theorem sightings_anchors (contentId event : String) (store : Store) :
    {s | s ∈ sightings event (anchors contentId store)} = sighted contentId event store.allSpans := by
  ext s
  simp only [Set.mem_ofPred_eq, sighted, mem_sightings, mem_anchors, Span.eventsNamed, List.mem_filter,
    beq_iff_eq, and_assoc, Option.map_eq_some_iff, Prod.ext_iff]
  constructor
  · rintro ⟨x, hx, hanchor, e, he, hname, peer, hpeer, rfl, htime⟩
    exact ⟨x, hx, hanchor, e, he, hname, hpeer, htime⟩
  · rintro ⟨x, hx, hanchor, e, he, hname, hpeer, htime⟩
    exact ⟨x, hx, hanchor, e, he, hname, s.1, hpeer, rfl, htime⟩

theorem Settled.tells {d : Download} (h : d.Settled) :
    Tells (sighted d.contentId Names.foundProvider d.store.allSpans)
      (sighted d.contentId Names.connectedToProvider d.store.allSpans) d.providers := by
  rw [h.providers, providersOf_eq, ← sightings_anchors, ← sightings_anchors]
  exact tells_connections _ _

/-- After any operations a download tells of providers what the sightings on its anchors come to, and nothing
else plays a part: a download of the same content that found the same peers at the same times, and connected
to these at the same times, tells the same. Until it is frozen, the stored spans are the first ones delivered
to each place. -/
theorem providers_counted (contentId : String) (catTrace : TraceId) (start : Nat) (ops : List Op) :
    let d := (Download.ofContent contentId catTrace start).run ops
    let found := sighted contentId Names.foundProvider d.store.allSpans
    let connected := sighted contentId Names.connectedToProvider d.store.allSpans
    (.freeze ∉ ops → ∀ x, x ∈ d.store.allSpans ↔ x ∈ leading (delivered ops)) ∧
      Tells found connected d.providers ∧
      ∀ (catTrace' : TraceId) (start' : Nat) (ops' : List Op),
        let d' := (Download.ofContent contentId catTrace' start').run ops'
        sighted contentId Names.foundProvider d'.store.allSpans = found →
          (∀ s, s.1 ∈ Prod.fst '' found →
            (s ∈ sighted contentId Names.connectedToProvider d'.store.allSpans ↔ s ∈ connected)) →
          d'.providers = d.providers := by
  have htells (catTrace : TraceId) (start : Nat) (ops : List Op) :
      let d := (Download.ofContent contentId catTrace start).run ops
      Tells (sighted contentId Names.foundProvider d.store.allSpans)
        (sighted contentId Names.connectedToProvider d.store.allSpans) d.providers := by
    intro d
    obtain ⟨hid, -⟩ : d.contentId = contentId ∧ d.catTrace = catTrace :=
      request_run (Download.ofContent contentId catTrace start) ops
    have hsettled : d.Settled := (Settled.ofContent contentId catTrace start).run ops
    exact hid ▸ hsettled.tells
  refine ⟨fun hops x => (holds_run_new contentId catTrace start hops).mem_iff, htells _ _ _, ?_⟩
  intro catTrace' start' ops' d' hfound hconnected
  exact (htells catTrace' start' ops').eq (htells catTrace start ops) hfound hconnected

/-- A search for "cid" whose events come in two batches and on two anchors. The peers "b" and "ab" are connected
to at the same time and each is found twice; "c" is connected to before both but never found, "d" is found
but never connected to. One event lacks its peer, one stands on a search for another content id, and one on a
span that is not a search. -/
def scatteredSearch : List Op :=
  let event (name peer : String) (time : UInt64) : Wire.Event := ⟨name, time, [⟨Names.peer, some (.string peer)⟩], 0⟩
  let search (cid : String) : List Wire.Attribute := [⟨Names.findProvidersCid, some (.string cid)⟩]
  [.ingest (.ofSpans [.ofNumbers 9 1 Names.findProviders 1 90 (search "cid")
      [event Names.foundProvider "b" 30, event Names.connectedToProvider "b" 50,
        event Names.connectedToProvider "c" 10, ⟨Names.connectedToProvider, 5, [], 0⟩],
      .ofNumbers 9 2 Names.findProviders 1 90 (search "other") [event Names.connectedToProvider "b" 7],
      .ofNumbers 9 3 Names.routingQuery 1 90 (search "cid") [event Names.foundProvider "e" 8]]),
    .ingest (.ofSpans [.ofNumbers 8 1 Names.findProviders 1 90 (search "cid")
      [event Names.connectedToProvider "ab" 50, event Names.foundProvider "ab" 60,
        event Names.foundProvider "d" 2, event Names.foundProvider "ab" 40, event Names.foundProvider "b" 45]])]

/-- The same search, all of it on one anchor and without what plays no part. -/
def plainSearch : List Op :=
  let event (name peer : String) (time : UInt64) : Wire.Event := ⟨name, time, [⟨Names.peer, some (.string peer)⟩], 0⟩
  [.ingest (.ofSpans [.ofNumbers 3 1 Names.findProviders 1 90 [⟨Names.findProvidersCid, some (.string "cid")⟩]
    [event Names.foundProvider "b" 30, event Names.foundProvider "b" 45, event Names.foundProvider "d" 2,
      event Names.foundProvider "ab" 40, event Names.foundProvider "ab" 60,
      event Names.connectedToProvider "b" 50, event Names.connectedToProvider "ab" 50]])]

theorem scatteredSearch_counted :
    let d := (Download.ofContent "cid" (.ofNat 7) 0).run scatteredSearch
    let d' := (Download.ofContent "cid" (.ofNat 7) 0).run plainSearch
    .freeze ∉ scatteredSearch ∧ (∀ x, x ∈ d.store.allSpans ↔ x ∈ leading (delivered scatteredSearch)) ∧
      d'.providers = d.providers ∧ d.providers = ⟨3, 2, some ⟨"ab", 40, 50⟩⟩ := by
  intro d d'
  have hops : .freeze ∉ scatteredSearch := by simp [scatteredSearch]
  obtain ⟨hstored, -, hsame⟩ := providers_counted "cid" (.ofNat 7) 0 scatteredSearch
  have hfound : sightings Names.foundProvider (anchors "cid" d.store) =
      [("b", 30), ("ab", 60), ("d", 2), ("ab", 40), ("b", 45)] := by decide
  have hfound' : sightings Names.foundProvider (anchors "cid" d'.store) =
      [("b", 30), ("b", 45), ("d", 2), ("ab", 40), ("ab", 60)] := by decide
  have hconnected : sightings Names.connectedToProvider (anchors "cid" d.store) =
      [("b", 50), ("c", 10), ("ab", 50)] := by decide
  have hconnected' : sightings Names.connectedToProvider (anchors "cid" d'.store) =
      [("b", 50), ("ab", 50)] := by decide
  refine ⟨hops, hstored hops, hsame (.ofNat 7) 0 plainSearch ?_ fun s hs => ?_, by decide⟩
  · rw [← sightings_anchors, ← sightings_anchors, hfound, hfound']
    ext s
    exact List.Perm.mem_iff (by decide)
  · rw [← sightings_anchors, hfound] at hs
    rw [← sightings_anchors, ← sightings_anchors, hconnected, hconnected']
    have hne : s.1 ≠ "c" := by
      rintro heq
      simp [heq] at hs
    simp only [Set.mem_ofPred_eq, List.mem_cons, List.not_mem_nil, or_false]
    refine or_congr_right ⟨Or.inr, fun h => h.resolve_left ?_⟩
    rintro rfl
    exact hne rfl

end ContentProbe.Download
