import ContentProbe.Collector.Basic
import Mathlib.Data.List.Basic

/-!
Who owns the registry. A session is a handle, and whoever has the handle registers and withdraws matchers
under its number, in any order and as often as wanted. To end, a session clears the registry; giving up the
claim is a later step, and anything may happen in between. No step looks at who fills the registry. Still the
registry is always that of the one session which has the claim, since a session clears it while it has the
claim, and nobody else can have begun by then.
-/

namespace ContentProbe

/-- The handle of a live session: its number, whether it has begun to end, and what it registered last. -/
structure Handle where
  session : Nat
  ending : Bool
  registered : List Matcher

/-- The claim that goes with a handle. -/
def Handle.claim (h : Handle) : Collector.Claim :=
  if h.ending then .ending h.session else .held h.session

/-- A collector, the handles of its live sessions, and the numbers of all sessions in the order in which they
began. -/
structure Sessions where
  collector : Collector
  live : List Handle
  begun : List Nat

namespace Sessions

/-- What export calls do to a collector, and whoever takes matches from it. -/
inductive Traffic : Collector → Collector → Prop where
  | arrive (c : Collector) (batch : Wire.Batch) (granted : Option Nat) : Traffic c (c.arrive batch granted)
  | scan (c : Collector) (call now : Nat) : Traffic c (c.scan call now)
  | resume (c : Collector) (call now : Nat) : Traffic c (c.resume call now)
  | take {c after : Collector} {d : Delivery} (h : c.take = some (d, after)) : Traffic c after
  | close (c : Collector) : Traffic c c.close

/-- One step of anybody, with the number of the session that makes it, if one does. -/
inductive Step : Option Nat → Sessions → Sessions → Prop where
  | acquire {c after : Collector} {live : List Handle} {begun : List Nat} {session : Nat}
      (h : c.acquire = some (session, after)) :
      Step (some session) ⟨c, live, begun⟩ ⟨after, live ++ [⟨session, false, []⟩], begun ++ [session]⟩
  | register {c : Collector} {older newer : List Handle} {h : Handle} {begun : List Nat}
      (matchers : List Matcher) (hopen : h.ending = false) :
      Step (some h.session) ⟨c, older ++ h :: newer, begun⟩
        ⟨c.registerFor h.session matchers, older ++ { h with registered := matchers } :: newer, begun⟩
  | reset {c : Collector} {older newer : List Handle} {h : Handle} {begun : List Nat}
      (hopen : h.ending = false) :
      Step (some h.session) ⟨c, older ++ h :: newer, begun⟩
        ⟨c.clear, older ++ { h with registered := [] } :: newer, begun⟩
  | retire {c : Collector} {older newer : List Handle} {h : Handle} {begun : List Nat}
      (hopen : h.ending = false) :
      Step (some h.session) ⟨c, older ++ h :: newer, begun⟩
        ⟨c.retire h.session, older ++ ⟨h.session, true, []⟩ :: newer, begun⟩
  | release {c : Collector} {older newer : List Handle} {h : Handle} {begun : List Nat}
      (hending : h.ending = true) :
      Step (some h.session) ⟨c, older ++ h :: newer, begun⟩ ⟨c.unlock, older ++ newer, begun⟩
  | traffic {c after : Collector} {live : List Handle} {begun : List Nat} (h : Traffic c after) :
      Step none ⟨c, live, begun⟩ ⟨after, live, begun⟩

/-- What a new collector may come to, whoever makes which step when. -/
inductive Reachable : Sessions → Prop where
  | start (queueSize sendLimit : Nat) (dumps : Option Directory) :
      Reachable ⟨.start queueSize sendLimit dumps, [], []⟩
  | step {s s' : Sessions} {actor : Option Nat} (hs : Reachable s) (h : Step actor s s') : Reachable s'

/-! Traffic leaves sessions alone -/

theorem Traffic.frame {c after : Collector} (h : Traffic c after) :
    after.registry = c.registry ∧ after.claim = c.claim ∧ after.sessions = c.sessions := by
  cases h with
  | arrive batch granted => exact ⟨rfl, rfl, rfl⟩
  | scan call now =>
      unfold Collector.scan
      split
      · exact ⟨rfl, rfl, rfl⟩
      · simp only
        split <;> exact ⟨rfl, rfl, rfl⟩
  | resume call now =>
      unfold Collector.resume
      split
      · exact ⟨rfl, rfl, rfl⟩
      · repeat' split
        all_goals exact ⟨rfl, rfl, rfl⟩
  | take h =>
      unfold Collector.take at h
      split at h
      · cases h
      · cases h
        exact ⟨rfl, rfl, rfl⟩
  | close => exact ⟨rfl, rfl, rfl⟩

/-! At most one session is live, and the registry is as it left it -/

/-- A claim, a registry and the live sessions fit together: either all is free and empty, or the one live
session has the claim and the registry holds what it registered last, nothing once it has begun to end. -/
def Fits (c : Collector) (live : List Handle) : Prop :=
  (live = [] ∧ c.claim = .free ∧ c.registry.matchers = []) ∨
    ∃ h, live = [h] ∧ c.claim = h.claim ∧ c.registry.matchers = h.registered ∧
      (h.registered ≠ [] → h.ending = false ∧ c.registry.session = h.session)

structure Orderly (s : Sessions) : Prop where
  numbered : s.begun.Pairwise (· < ·)
  counted : ∀ n ∈ s.begun, n ≤ s.collector.sessions
  known : ∀ h ∈ s.live, h.session ∈ s.begun
  fits : Fits s.collector s.live

theorem eq_of_append_cons_eq_singleton {older newer : List Handle} {h h' : Handle}
    (heq : older ++ h :: newer = [h']) : older = [] ∧ h = h' ∧ newer = [] := by
  cases older with
  | nil => simpa using heq
  | cons x older => simp at heq

/-- A session that makes a step is the only live one. -/
theorem Fits.sole {c : Collector} {older newer : List Handle} {h : Handle}
    (hfits : Fits c (older ++ h :: newer)) :
    older = [] ∧ newer = [] ∧ c.claim = h.claim ∧ c.registry.matchers = h.registered ∧
      (h.registered ≠ [] → h.ending = false ∧ c.registry.session = h.session) := by
  rcases hfits with ⟨hnone, -, -⟩ | ⟨h', hlive, hclaim, hregistry, hown⟩
  · simp at hnone
  · obtain ⟨holder, rfl, hnewer⟩ := eq_of_append_cons_eq_singleton hlive
    exact ⟨holder, hnewer, hclaim, hregistry, hown⟩

theorem acquire_eq_some_iff {c after : Collector} {session : Nat} :
    c.acquire = some (session, after) ↔
      c.claim = .free ∧ session = c.sessions + 1 ∧
        after = { c with claim := .held (c.sessions + 1), sessions := c.sessions + 1 } := by
  unfold Collector.acquire
  split
  · rename_i hfree
    simp only [hfree, Option.some.injEq, Prod.mk.injEq, true_and]
    exact and_congr eq_comm eq_comm
  · rename_i hheld
    simp only [reduceCtorEq, false_iff]
    exact fun h => hheld h.1

/-- The claim of a live session is never free. -/
theorem Fits.live_eq_nil_of_free {c : Collector} {live : List Handle} (hfits : Fits c live)
    (hfree : c.claim = .free) : live = [] ∧ c.registry.matchers = [] := by
  rcases hfits with ⟨hnone, -, hempty⟩ | ⟨h, -, hclaim, -, -⟩
  · exact ⟨hnone, hempty⟩
  · rw [hfree, Handle.claim] at hclaim
    split at hclaim <;> cases hclaim

theorem Orderly.step {s s' : Sessions} {actor : Option Nat} (hs : s.Orderly) (h : Step actor s s') :
    s'.Orderly := by
  cases h with
  | @acquire c after live begun session h =>
      obtain ⟨hfree, rfl, rfl⟩ := acquire_eq_some_iff.mp h
      obtain ⟨rfl, hempty⟩ := hs.fits.live_eq_nil_of_free hfree
      have hlater (n : Nat) (hn : n ∈ begun) : n < c.sessions + 1 := Nat.lt_succ_of_le (hs.counted n hn)
      refine ⟨?_, ?_, ?_, Or.inr ⟨⟨c.sessions + 1, false, []⟩, rfl, rfl, hempty, by simp⟩⟩
      · exact List.pairwise_append.mpr ⟨hs.numbered, List.pairwise_singleton _ _, by simpa using hlater⟩
      · intro n hn
        rcases List.mem_append.mp hn with hn | hn
        · exact Nat.le_of_lt (hlater n hn)
        · exact Nat.le_of_eq (List.mem_singleton.mp hn)
      · simp
  | @register c older newer h begun matchers hopen =>
      obtain ⟨rfl, rfl, hclaim, -, -⟩ := hs.fits.sole
      have hknown : h.session ∈ begun := hs.known h (by simp)
      refine ⟨hs.numbered, hs.counted, by simpa using hknown, Or.inr ⟨_, rfl, ?_, rfl, ?_⟩⟩
      · exact hclaim
      · exact fun _ => ⟨hopen, rfl⟩
  | @reset c older newer h begun hopen =>
      obtain ⟨rfl, rfl, hclaim, -, -⟩ := hs.fits.sole
      have hknown : h.session ∈ begun := hs.known h (by simp)
      exact ⟨hs.numbered, hs.counted, by simpa using hknown, Or.inr ⟨_, rfl, hclaim, rfl, by simp⟩⟩
  | @retire c older newer h begun hopen =>
      obtain ⟨rfl, rfl, -, -, -⟩ := hs.fits.sole
      have hknown : h.session ∈ begun := hs.known h (by simp)
      exact ⟨hs.numbered, hs.counted, by simpa using hknown, Or.inr ⟨_, rfl, rfl, rfl, by simp⟩⟩
  | @release c older newer h begun hending =>
      obtain ⟨rfl, rfl, -, hregistry, hown⟩ := hs.fits.sole
      -- Nothing is left in the registry once the session has begun to end.
      have hempty : c.registry.matchers = [] := by
        rw [hregistry]
        by_contra hne
        simp [hending] at hown
        exact hne hown
      exact ⟨hs.numbered, hs.counted, by simp, Or.inl ⟨rfl, rfl, hempty⟩⟩
  | @traffic c after live begun h =>
      obtain ⟨hregistry, hclaim, hsessions⟩ := h.frame
      refine ⟨hs.numbered, ?_, hs.known, ?_⟩
      · simpa only [hsessions] using hs.counted
      · simpa only [Fits, hregistry, hclaim] using hs.fits

theorem Orderly.start (queueSize sendLimit : Nat) (dumps : Option Directory) :
    Orderly ⟨.start queueSize sendLimit dumps, [], []⟩ :=
  ⟨.nil, by simp, by simp, Or.inl ⟨rfl, rfl, rfl⟩⟩

theorem Reachable.orderly {s : Sessions} (h : Reachable s) : s.Orderly := by
  induction h with
  | start queueSize sendLimit dumps => exact .start queueSize sendLimit dumps
  | step _ h ih => exact ih.step h

/-! What follows for the registry -/

theorem Orderly.live_length_le {s : Sessions} (hs : s.Orderly) : s.live.length ≤ 1 := by
  rcases hs.fits with ⟨hnone, -, -⟩ | ⟨h, hlive, -, -, -⟩
  · simp [hnone]
  · simp [hlive]

/-- What is registered was registered last by the live session, which has not begun to end. -/
theorem Orderly.owner {s : Sessions} (hs : s.Orderly) (hmatchers : s.collector.registry.matchers ≠ []) :
    ∃ h ∈ s.live, h.ending = false ∧ s.collector.claim = .held h.session ∧
      s.collector.registry = ⟨h.session, h.registered⟩ := by
  rcases hs.fits with ⟨-, -, hempty⟩ | ⟨h, hlive, hclaim, hregistry, hown⟩
  · exact absurd hempty hmatchers
  · obtain ⟨hopen, hsession⟩ := hown (hregistry ▸ hmatchers)
    refine ⟨h, by simp [hlive], hopen, by simpa [Handle.claim, hopen] using hclaim, ?_⟩
    rw [← hsession, ← hregistry]

theorem scan_eq_matched_iff {r : Registry} {b : Wire.Batch} {index session : Nat} :
    r.scan b = .matched index session ↔
      r.matchers ≠ [] ∧ Matcher.firstHit? r.matchers b = some index ∧ session = r.session := by
  unfold Registry.scan
  split
  · rename_i hempty
    simp [List.isEmpty_iff.mp hempty]
  · rename_i hne
    rw [List.isEmpty_iff] at hne
    cases Matcher.firstHit? r.matchers b <;> simp [hne, eq_comm]

theorem Orderly.scan_owner {s : Sessions} (hs : s.Orderly) {b : Wire.Batch} {index session : Nat}
    (hscan : s.collector.registry.scan b = .matched index session) :
    ∃ h ∈ s.live, h.ending = false ∧ session = h.session ∧ Matcher.firstHit? h.registered b = some index := by
  obtain ⟨hmatchers, hhit, hsession⟩ := scan_eq_matched_iff.mp hscan
  obtain ⟨h, hlive, hopen, -, hregistry⟩ := hs.owner hmatchers
  rw [hregistry] at hhit hsession
  exact ⟨h, hlive, hopen, hsession, hhit⟩

/-- Whoever changes the registry has filled it, unless it was empty. -/
theorem Orderly.actor_of_registry_ne {s s' : Sessions} {actor : Option Nat} (hs : s.Orderly)
    (h : Step actor s s') (hne : s'.collector.registry ≠ s.collector.registry)
    (hmatchers : s.collector.registry.matchers ≠ []) : actor = some s.collector.registry.session := by
  obtain ⟨owner, howner, -, -, hregistry⟩ := hs.owner hmatchers
  have hactor {c : Collector} {older newer : List Handle} {h : Handle} {begun : List Nat}
      (hs : Orderly ⟨c, older ++ h :: newer, begun⟩) (howner : owner ∈ older ++ h :: newer) :
      some h.session = some owner.session := by
    obtain ⟨rfl, rfl, -, -, -⟩ := hs.fits.sole
    rw [List.mem_singleton.mp howner]
  rw [hregistry]
  cases h with
  | acquire h =>
      obtain ⟨-, -, rfl⟩ := acquire_eq_some_iff.mp h
      exact absurd rfl hne
  | register matchers hopen => exact hactor hs howner
  | reset hopen => exact hactor hs howner
  | retire hopen => exact hactor hs howner
  | release hending => exact hactor hs howner
  | traffic h => exact absurd h.frame.1 hne

/-- A live session is the only one, and has the claim. -/
theorem Orderly.sole_of_mem {s : Sessions} (hs : s.Orderly) {h : Handle} (hlive : h ∈ s.live) :
    s.live = [h] ∧ s.collector.claim = h.claim := by
  rcases hs.fits with ⟨hnone, -, -⟩ | ⟨h', hlive', hclaim, -, -⟩
  · simp [hnone] at hlive
  · obtain rfl : h = h' := by simpa [hlive'] using hlive
    exact ⟨hlive', hclaim⟩

theorem Orderly.held_of_open {s : Sessions} (hs : s.Orderly) {h : Handle} (hlive : h ∈ s.live)
    (hopen : h.ending = false) : s.collector.claim = .held h.session := by
  simpa [Handle.claim, hopen] using (hs.sole_of_mem hlive).2

/-- The steps of a run are those of its handle. -/
theorem Orderly.run_steps {s : Sessions} (hs : s.Orderly) {h : Handle} (hlive : h ∈ s.live)
    (matchers : List Matcher) :
    (h.ending = false →
      s.collector.register matchers = s.collector.registerFor h.session matchers ∧
        s.collector.reset = s.collector.clear ∧ s.collector.leave = s.collector.retire h.session) ∧
      (h.ending = true → s.collector.release = s.collector.unlock) := by
  rcases hs.fits with ⟨hnone, -, -⟩ | ⟨h', hlive', hclaim, -, -⟩
  · simp [hnone] at hlive
  · have heq : h = h' := by simpa [hlive'] using hlive
    subst heq
    constructor
    · intro hopen
      have hheld : s.collector.claim = .held h.session := by simpa [Handle.claim, hopen] using hclaim
      simp only [Collector.register, Collector.reset, Collector.leave, hheld, and_self]
    · intro hending
      have hheld : s.collector.claim = .ending h.session := by simpa [Handle.claim, hending] using hclaim
      simp only [Collector.release, hheld]

/-- Whatever sessions and export calls do in whatever order: at most one session is live, sessions have
growing numbers, and what is registered belongs to the live session, which has the claim and has registered
it last. So a scan tags no batch for a session that has begun to end, and no session changes what another one
has registered. -/
theorem registry_owned {s : Sessions} (hs : Reachable s) :
    s.live.length ≤ 1 ∧ s.begun.Pairwise (· < ·) ∧ (∀ h ∈ s.live, h.session ∈ s.begun) ∧
      (s.collector.registry.matchers ≠ [] →
        ∃ h ∈ s.live, h.ending = false ∧ s.collector.claim = .held h.session ∧
          s.collector.registry = ⟨h.session, h.registered⟩) ∧
      (∀ b index session, s.collector.registry.scan b = .matched index session →
        ∃ h ∈ s.live, h.ending = false ∧ session = h.session ∧
          Matcher.firstHit? h.registered b = some index) ∧
      (∀ actor s', Step actor s s' → s'.collector.registry ≠ s.collector.registry →
        s.collector.registry.matchers ≠ [] → actor = some s.collector.registry.session) := by
  have horderly := hs.orderly
  refine ⟨horderly.live_length_le, horderly.numbered, horderly.known, horderly.owner, ?_, ?_⟩
  · exact fun b index session hscan => horderly.scan_owner hscan
  · exact fun actor s' h hne hmatchers => horderly.actor_of_registry_ne h hne hmatchers

/-- A collector whose second session has registered a matcher after the first one ended. -/
def handedOver : Sessions :=
  ⟨{ Collector.start 8 100 none with registry := ⟨2, [.name "new"]⟩, claim := .held 2, sessions := 2 },
    [⟨2, false, [.name "new"]⟩], [1, 2]⟩

theorem reachable_handedOver : Reachable handedOver := by
  have hfirst := (Reachable.start 8 100 none).step (.acquire rfl)
  have hregistered := hfirst.step (@Step.register _ [] [] ⟨1, false, []⟩ _ [.name "old"] rfl)
  have hretired := hregistered.step (@Step.retire _ [] [] ⟨1, false, [.name "old"]⟩ _ rfl)
  have hreleased := hretired.step (@Step.release _ [] [] ⟨1, true, []⟩ _ rfl)
  have hsecond := hreleased.step (.acquire rfl)
  exact hsecond.step (@Step.register _ [] [] ⟨2, false, []⟩ _ [.name "new"] rfl)

theorem handedOver_owned :
    handedOver.collector.registry.matchers ≠ [] ∧
      (∃ h ∈ handedOver.live, h.ending = false ∧ handedOver.collector.claim = .held h.session ∧
        handedOver.collector.registry = ⟨h.session, h.registered⟩) ∧
      handedOver.begun = [1, 2] := by
  have hmatchers : handedOver.collector.registry.matchers ≠ [] := by decide
  obtain ⟨-, -, -, howner, -⟩ := registry_owned reachable_handedOver
  exact ⟨hmatchers, howner hmatchers, rfl⟩

end Sessions

end ContentProbe
