import ContentProbe.Download
import ContentProbe.Proofs.Earliest
import Mathlib.Data.List.Perm.Basic
import Mathlib.Data.String.Basic

/-!
What a download reads off spans depends on which spans there are, and on those of a few names only: the
providers on the anchors, the index query on the queries to an index, the times of events on the spans that
hold them, and the way of discovery on the queries to the routing table.
-/

namespace ContentProbe.Download

/-! Providers -/

theorem mem_sightings {event : String} {spans : List Span} {s : String × Nat} :
    s ∈ sightings event spans ↔
      ∃ x ∈ spans, ∃ e ∈ x.eventsNamed event, (e.attributes.string? Names.peer).map (·, e.time) = some s := by
  simp only [sightings, List.mem_filterMap, List.mem_flatMap]
  constructor
  · rintro ⟨e, ⟨x, hx, he⟩, hs⟩
    exact ⟨x, hx, e, he, hs⟩
  · rintro ⟨x, hx, e, he, hs⟩
    exact ⟨e, ⟨x, hx, he⟩, hs⟩

theorem peersOf_perm {seen seen' : List (String × Nat)} (hseen : ∀ s, s ∈ seen ↔ s ∈ seen') :
    (peersOf seen).Perm (peersOf seen') := by
  apply eraseDups_perm
  intro peer
  simp only [List.mem_map, hseen]

theorem firstSeen?_congr {seen seen' : List (String × Nat)} (hseen : ∀ s, s ∈ seen ↔ s ∈ seen') :
    firstSeen? seen = firstSeen? seen' := by
  funext peer
  apply min?_congr
  intro time
  simp only [List.mem_map, List.mem_filter, hseen]

theorem providerBefore_ordersBy :
    OrdersBy providerBefore fun p => toLex (p.connectedAt, p.peer) := by
  intro a b
  simp only [providerBefore, Bool.or_eq_true, Bool.and_eq_true, decide_eq_true_eq, beq_iff_eq,
    Prod.Lex.toLex_lt_toLex]

/-- The peers that were connected to and found, each with the times at which both happened first. -/
def connections (found connected : List (String × Nat)) : List FirstProvider :=
  (peersOf connected).filterMap fun peer => do
    return FirstProvider.mk peer (← firstSeen? found peer) (← firstSeen? connected peer)

theorem mem_connections {found connected : List (String × Nat)} {p : FirstProvider} :
    p ∈ connections found connected ↔
      p.peer ∈ peersOf connected ∧ firstSeen? found p.peer = some p.foundAt ∧
        firstSeen? connected p.peer = some p.connectedAt := by
  obtain ⟨peer, foundAt, connectedAt⟩ := p
  simp [connections, List.mem_filterMap, Option.bind_eq_some_iff]

theorem firstSeen?_isSome_iff {seen : List (String × Nat)} {peer : String} :
    (firstSeen? seen peer).isSome = true ↔ peer ∈ peersOf seen := by
  rw [firstSeen?, Option.isSome_iff_ne_none, ne_eq, List.min?_eq_none_iff, List.map_eq_nil_iff,
    List.filter_eq_nil_iff, peersOf, List.mem_eraseDups, List.mem_map]
  simp [and_comm]

theorem mem_peers_connections {found connected : List (String × Nat)} {peer : String} :
    peer ∈ (connections found connected).map (·.peer) ↔ peer ∈ peersOf found ∧ peer ∈ peersOf connected := by
  simp only [List.mem_map]
  constructor
  · rintro ⟨p, hp, rfl⟩
    obtain ⟨hconnected, hfound, -⟩ := mem_connections.mp hp
    exact ⟨firstSeen?_isSome_iff.mp (by simp [hfound]), hconnected⟩
  · rintro ⟨hfound, hconnected⟩
    obtain ⟨foundAt, hfoundAt⟩ := Option.isSome_iff_exists.mp (firstSeen?_isSome_iff.mpr hfound)
    obtain ⟨connectedAt, hconnectedAt⟩ := Option.isSome_iff_exists.mp (firstSeen?_isSome_iff.mpr hconnected)
    exact ⟨⟨peer, foundAt, connectedAt⟩, mem_connections.mpr ⟨hconnected, hfoundAt, hconnectedAt⟩, rfl⟩

/-- A peer counts once, however often it was connected to. -/
theorem nodup_peers_connections (found connected : List (String × Nat)) :
    ((connections found connected).map (·.peer)).Nodup := by
  have hsublist (peers : List String) : ((peers.filterMap fun peer => do
      return FirstProvider.mk peer (← firstSeen? found peer) (← firstSeen? connected peer)).map
        (·.peer)).Sublist peers := by
    induction peers with
    | nil => simp
    | cons peer peers ih =>
        rw [List.filterMap_cons]
        split
        · exact ih.cons peer
        · rename_i p hp
          have hpeer : p.peer = peer := by
            obtain ⟨foundAt, -, hp⟩ := Option.bind_eq_some_iff.mp hp
            obtain ⟨connectedAt, -, hp⟩ := Option.bind_eq_some_iff.mp hp
            rw [← Option.some.inj hp]
          rw [List.map_cons, hpeer]
          exact ih.cons_cons peer
  exact (nodup_eraseDups _).sublist (hsublist (peersOf connected))

theorem connections_perm {found found' connected connected' : List (String × Nat)}
    (hfound : ∀ s, s ∈ found ↔ s ∈ found') (hconnected : ∀ s, s ∈ connected ↔ s ∈ connected') :
    (connections found connected).Perm (connections found' connected') := by
  unfold connections
  rw [firstSeen?_congr hfound, firstSeen?_congr hconnected]
  exact (peersOf_perm hconnected).filterMap _

/-- A peer has one entry. -/
theorem connection_eq {found connected : List (String × Nat)} {p q : FirstProvider}
    (hp : p ∈ connections found connected) (hq : q ∈ connections found connected)
    (hpeer : p.peer = q.peer) : p = q := by
  obtain ⟨-, hpFound, hpConnected⟩ := mem_connections.mp hp
  obtain ⟨-, hqFound, hqConnected⟩ := mem_connections.mp hq
  rw [hpeer, hqFound] at hpFound
  rw [hpeer, hqConnected] at hpConnected
  cases p
  cases q
  simp_all only [Option.some.injEq]

theorem providersOf_eq (anchors : List Span) :
    providersOf anchors =
      let found := sightings Names.foundProvider anchors
      let both := connections found (sightings Names.connectedToProvider anchors)
      ⟨(peersOf found).length, both.length, firstBy? providerBefore both⟩ := rfl

/-- A connection counts for a found peer, so that no more peers count as connected than as found, and there is
a first one as soon as one counts. Its times are those at which its peer was first found and connected to. -/
theorem providersOf_coupled (anchors : List Span) :
    (providersOf anchors).connected ≤ (providersOf anchors).found ∧
      ((providersOf anchors).first.isSome = true ↔ 0 < (providersOf anchors).connected) ∧
      ∀ p ∈ (providersOf anchors).first,
        firstSeen? (sightings Names.foundProvider anchors) p.peer = some p.foundAt ∧
          firstSeen? (sightings Names.connectedToProvider anchors) p.peer = some p.connectedAt := by
  simp only [providersOf_eq]
  refine ⟨?_, ?_, fun p hp => ?_⟩
  · have hfound : ∀ peer ∈ (connections (sightings Names.foundProvider anchors)
        (sightings Names.connectedToProvider anchors)).map (·.peer),
        peer ∈ peersOf (sightings Names.foundProvider anchors) :=
      fun peer hpeer => (mem_peers_connections.mp hpeer).1
    simpa using (List.subperm_of_subset (nodup_peers_connections _ _) hfound).length_le
  · rw [Option.isSome_iff_ne_none, ne_eq, firstBy?_eq_none_iff, List.length_pos_iff]
  · exact (mem_connections.mp (isFirst_of_firstBy? providerBefore_ordersBy hp).1).2

/-- Spans with the same anchors among them tell the same of providers. -/
theorem providersOf_congr {xs ys : List Span} (hmem : ∀ x, x ∈ xs ↔ x ∈ ys) :
    providersOf xs = providersOf ys := by
  have hseen (event : String) (s : String × Nat) : s ∈ sightings event xs ↔ s ∈ sightings event ys := by
    simp only [mem_sightings, hmem]
  have hboth := connections_perm (hseen Names.foundProvider) (hseen Names.connectedToProvider)
  have hfound := (peersOf_perm (hseen Names.foundProvider)).length_eq
  have hfirst := firstBy?_map_congr providerBefore_ordersBy id (fun _ => hboth.mem_iff)
    fun a b ha hb hkey => connection_eq ha.1 hb.1 (Prod.mk.inj (toLex.injective hkey)).2
  simp only [Option.map_id_fun, id_eq] at hfirst
  simp only [providersOf_eq, hfound, hboth.length_eq, hfirst]

/-! The query to an index -/

theorem queryBefore_ordersBy : OrdersBy queryBefore fun q => toLex (q.start, q.id.toNat) := by
  intro a b
  simp [queryBefore, Prod.Lex.toLex_lt_toLex]

/-- The times and the status that are shown are those of one query. -/
theorem exists_of_mem_indexQueryOf {spans : List Span} {q : IndexQuery} (hq : q ∈ indexQueryOf spans) :
    ∃ s ∈ spans, s.name = Names.indexQuery ∧
      q = ⟨s.start, s.finish, s.attributes.int? Names.statusCode⟩ := by
  obtain ⟨s, hs, rfl⟩ := Option.map_eq_some_iff.mp hq
  obtain ⟨hmem, hname⟩ := List.mem_filter.mp (isFirst_of_firstBy? queryBefore_ordersBy hs).1
  exact ⟨s, hmem, beq_iff_eq.mp hname, rfl⟩

/-- Also of queries that are tied, the start is the same. -/
theorem indexQueryOf_start_congr {xs ys : List Span}
    (hmem : ∀ x, x.name = Names.indexQuery → (x ∈ xs ↔ x ∈ ys)) :
    (indexQueryOf xs).map (·.start) = (indexQueryOf ys).map (·.start) := by
  simp only [indexQueryOf, Option.map_map]
  apply firstBy?_map_congr queryBefore_ordersBy
  · intro x
    simp only [List.mem_filter, beq_iff_eq]
    exact and_congr_left (hmem x)
  · intro q q' _ _ hkey
    exact (Prod.mk.inj (toLex.injective hkey)).1

/-- Spans with the same queries among them show the same earliest one, unless it is tied. -/
theorem indexQueryOf_congr {xs ys : List Span}
    (hmem : ∀ x, x.name = Names.indexQuery → (x ∈ xs ↔ x ∈ ys))
    (huntied : ∀ q q' : Span, IsFirst (fun x : Span => x.start) (xs.filter (·.name == Names.indexQuery)) q →
      q' ∈ xs → q'.name = Names.indexQuery → q'.start = q.start → q'.id.toNat = q.id.toNat → q' = q) :
    indexQueryOf xs = indexQueryOf ys := by
  apply firstBy?_map_congr queryBefore_ordersBy
  · intro x
    simp only [List.mem_filter, beq_iff_eq]
    constructor
    · rintro ⟨hx, hname⟩
      exact ⟨(hmem x hname).mp hx, hname⟩
    · rintro ⟨hx, hname⟩
      exact ⟨(hmem x hname).mpr hx, hname⟩
  · intro q q' hq hq' hkey
    obtain ⟨hstart, hid⟩ := Prod.mk.inj (toLex.injective hkey)
    have hearliest : IsFirst (fun x : Span => x.start) (xs.filter (·.name == Names.indexQuery)) q := by
      refine ⟨hq.1, fun x hx => ?_⟩
      rcases Prod.Lex.toLex_le_toLex.mp (hq.2 x hx) with hlt | ⟨heq, -⟩
      · exact hlt.le
      · exact heq.le
    obtain ⟨hmem', hname'⟩ := List.mem_filter.mp hq'.1
    rw [huntied q q' hearliest hmem' (beq_iff_eq.mp hname') hstart.symm hid.symm]

/-! Times -/

theorem earliestEvent?_congr {span event : String} {xs ys : List Span}
    (hmem : ∀ x, x.name = span → (x ∈ xs ↔ x ∈ ys)) :
    earliestEvent? span event xs = earliestEvent? span event ys := by
  have hnamed (x : Span) : x ∈ xs.filter (·.name == span) ↔ x ∈ ys.filter (·.name == span) := by
    simp only [List.mem_filter, beq_iff_eq]
    exact and_congr_left (hmem x)
  apply min?_congr
  intro time
  simp only [List.mem_map, List.mem_flatMap, hnamed]

/-! The way of discovery -/

/-- A query to the routing table that began early. -/
def isEarlyRouting (firstBlock : Option Nat) (s : Span) : Bool :=
  s.name == Names.routingQuery && isEarly firstBlock s.start

theorem isEarly_of_le {firstBlock : Option Nat} {start start' : Nat} (hle : start' ≤ start)
    (h : isEarly firstBlock start = true) : isEarly firstBlock start' = true := by
  cases firstBlock with
  | none => rfl
  | some block =>
      simp only [isEarly, decide_eq_true_eq] at h ⊢
      omega

/-- The first of some starts is early exactly if one of them is. -/
theorem any_min?_isEarly (firstBlock : Option Nat) (starts : List Nat) :
    starts.min?.any (isEarly firstBlock) = starts.any (isEarly firstBlock) := by
  cases hmin : starts.min? with
  | none => simp [List.min?_eq_none_iff.mp hmin]
  | some least =>
      obtain ⟨hmem, hle⟩ := List.min?_eq_some_iff.mp hmin
      rw [Option.any_some, Bool.eq_iff_iff, List.any_eq_true]
      constructor
      · exact fun h => ⟨least, hmem, h⟩
      · rintro ⟨start, hstart, h⟩
        exact isEarly_of_le (hle start hstart) h

theorem classify_eq (firstBlock : Option Nat) (query : Option IndexQuery) (tracked : List Span) :
    classify firstBlock query tracked =
      if tracked.any (isEarlyRouting firstBlock) then .routing
      else if (query.map (·.start)).any (isEarly firstBlock) then .index
      else .broadcast := by
  have hrouting : ((tracked.filter (·.name == Names.routingQuery)).map (·.start)).any (isEarly firstBlock) =
      tracked.any (isEarlyRouting firstBlock) := by
    rw [List.any_map, List.any_filter]
    rfl
  simp only [classify, any_min?_isEarly, hrouting]

/-- Only the early queries to the routing table among some spans matter. -/
theorem classify_congr (firstBlock : Option Nat) (query : Option IndexQuery) {xs ys : List Span}
    (hmem : ∀ x, isEarlyRouting firstBlock x = true → (x ∈ xs ↔ x ∈ ys)) :
    classify firstBlock query xs = classify firstBlock query ys := by
  have hany : xs.any (isEarlyRouting firstBlock) = ys.any (isEarlyRouting firstBlock) := by
    rw [Bool.eq_iff_iff, List.any_eq_true, List.any_eq_true]
    constructor
    · rintro ⟨x, hx, h⟩
      exact ⟨x, (hmem x h).mp hx, h⟩
    · rintro ⟨x, hx, h⟩
      exact ⟨x, (hmem x h).mpr hx, h⟩
  rw [classify_eq, classify_eq, hany]

/-- Of the query to an index only the start matters. -/
theorem classify_start_congr (firstBlock : Option Nat) {query query' : Option IndexQuery}
    (hstart : query.map (·.start) = query'.map (·.start)) (tracked : List Span) :
    classify firstBlock query tracked = classify firstBlock query' tracked := by
  rw [classify_eq, classify_eq, hstart]

end ContentProbe.Download
