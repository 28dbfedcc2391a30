import ContentProbe.Proofs.Collector.Accounting
import ContentProbe.Run.Probe
import Mathlib.Logic.Relation

/-!
A timeline keeps books of its collector. Every match in line belongs to a call that an exporter is waiting for,
and that exporter has a timer; so a clock that moves no further than the next timer passes none of them. What
exporters do, and what a foreground does with sessions and the queue, are steps of the books.
-/

namespace ContentProbe

open ContentProbe.Time Relation

/-! Steps at one instant -/

namespace Collector

/-- What a foreground does: it begins and ends sessions, takes matches, and closes the queue. -/
inductive Fronted (c : Collector) : Collector → Prop where
  | take {after : Collector} {d : Delivery} (h : c.take = some (d, after)) : Fronted c after
  | close : Fronted c c.close
  | session (registry : Registry) (claim : Claim) (sessions : Nat) :
      Fronted c { c with registry, claim, sessions }

theorem Fronted.move {c after : Collector} (h : Fronted c after) (now : Nat) : Move now c after := by
  cases h with
  | take h => exact .take h
  | close => exact .close
  | session registry claim sessions => exact .session registry claim sessions

/-- A foreground never touches the line, except that places are set aside. -/
theorem Fronted.inLine {c after : Collector} (h : Fronted c after) : after.inLine = c.inLine := by
  cases h with
  | take h =>
      obtain ⟨rest, -, rfl⟩ := take_eq_some_iff.mp h
      exact inLine_grantFirst c
  | close => rfl
  | session registry claim sessions => rfl

theorem inLine_fronted {c after : Collector} (h : ReflTransGen Fronted c after) : after.inLine = c.inLine := by
  induction h with
  | refl => rfl
  | tail _ hfronted ih => rw [hfronted.inLine, ih]

theorem fronted_register (c : Collector) (matchers : List Matcher) : Fronted c (c.register matchers) := by
  unfold register
  split
  · exact .session _ c.claim c.sessions
  · exact .session c.registry c.claim c.sessions

theorem fronted_reset (c : Collector) : Fronted c c.reset := by
  unfold reset
  split
  · exact .session .empty c.claim c.sessions
  · exact .session c.registry c.claim c.sessions

theorem fronted_leave (c : Collector) : Fronted c c.leave := by
  unfold leave
  split
  · exact .session .empty _ c.sessions
  · exact .session c.registry c.claim c.sessions

theorem fronted_release (c : Collector) : Fronted c c.release := by
  unfold release
  split
  · exact .session c.registry .free c.sessions
  · exact .session c.registry c.claim c.sessions

theorem fronted_dismiss (c : Collector) : ReflTransGen Fronted c c.dismiss :=
  (ReflTransGen.single (fronted_leave c)).tail (fronted_release c.leave)

theorem fronted_acquire {c after : Collector} {session : Nat} (h : c.acquire = some (session, after)) :
    Fronted c after := by
  unfold acquire at h
  split at h
  · cases h
    exact .session c.registry _ _
  · cases h

theorem fronted_receive {c after : Collector}
    (h : (∃ d, c.receive = .own d after) ∨ c.receive = .foreign after) : Fronted c after := by
  rcases h with ⟨d, h⟩ | h
  · exact .take (receive_eq_own_iff.mp h).1
  · obtain ⟨d, htake, -⟩ := receive_eq_foreign_iff.mp h
    exact .take htake

/-- What an exporter does at an instant. Its calls have headers. -/
inductive Sent (now : Nat) (c : Collector) : Collector → Prop where
  | arrive (batch : Wire.Batch) (header : Option String) :
      Sent now c (c.arrive batch (header.bind CallTimeout.read?))
  | scan (call : Nat) : Sent now c (c.scan call now)
  | resume (call : Nat) : Sent now c (c.resume call now)

/-- A scan brings nobody into line but its call. -/
theorem inLine_scan {c : Collector} {call now other : Nat} (h : other ∈ (c.scan call now).inLine) :
    other ∈ c.inLine ∨ other = call := by
  unfold Collector.scan at h
  split at h
  · exact Or.inl h
  · dsimp only at h
    split at h
    · exact Or.inl h
    · exact Or.inl h
    · simpa [inLine] using h

theorem inLine_resume {c : Collector} {call now other : Nat} (h : other ∈ (c.resume call now).inLine) :
    other ∈ c.inLine := by
  rcases resume_cases c call now with heq | ⟨w, -, -, ⟨heq, -⟩ | ⟨heq, -⟩⟩
  · exact heq ▸ h
  · rw [heq] at h
    exact (List.filter_sublist.map _).subset h
  · rw [heq] at h
    exact (List.filter_sublist.map _).subset h

end Collector

open Collector

namespace Books

variable {queueSize sendLimit : Nat} {x : Books}

/-- Whatever exporters do at an instant, the books can be kept. -/
theorem Reachable.sent (hx : Reachable queueSize sendLimit x) {after : Collector}
    (h : ReflTransGen (Sent x.now) x.collector after) :
    ∃ x', Reachable queueSize sendLimit x' ∧ x'.now = x.now ∧ x'.collector = after := by
  induction h with
  | refl => exact ⟨x, hx, rfl, rfl⟩
  | tail _ hsent ih =>
      obtain ⟨y, hy, hnow, rfl⟩ := ih
      rw [← hnow] at hsent
      cases hsent with
      | arrive batch header => exact ⟨_, hy.step (.arrive y batch header), hnow, rfl⟩
      | scan call => exact ⟨_, hy.step (.move (.scan call)), hnow, rfl⟩
      | resume call => exact ⟨_, hy.step (.move (.resume call)), hnow, rfl⟩

theorem Reachable.fronted (hx : Reachable queueSize sendLimit x) {after : Collector}
    (h : ReflTransGen Fronted x.collector after) :
    ∃ x', Reachable queueSize sendLimit x' ∧ x'.now = x.now ∧ x'.collector = after := by
  induction h with
  | refl => exact ⟨x, hx, rfl, rfl⟩
  | tail _ hfronted ih =>
      obtain ⟨y, hy, hnow, rfl⟩ := ih
      exact ⟨_, hy.step (.move (hfronted.move y.now)), hnow, rfl⟩

end Books

/-! Exporters -/

/-- The time that an export grants its call stands in a header. -/
def Export.Headed (p : Export) : Prop := ∃ header : Option String, p.timeout = header.bind CallTimeout.read?

namespace Exporter

theorem proceed_sent (now : Nat) {rest : List Export} (hrest : ∀ p ∈ rest, p.Headed) (c : Collector) :
    ReflTransGen (Sent now) c (proceed now rest c).1 := by
  induction rest generalizing c with
  | nil => exact .refl
  | cons p rest ih =>
      unfold proceed
      split
      · exact .refl
      · obtain ⟨header, hheader⟩ := hrest p List.mem_cons_self
        have hcall : ReflTransGen (Sent now) c
            (((c.arrive p.batch p.timeout).scan c.calls now).resume c.calls now) := by
          rw [hheader]
          exact ((ReflTransGen.single (.arrive p.batch header)).tail (.scan c.calls)).tail (.resume c.calls)
        dsimp only
        split
        · exact hcall
        · exact hcall.trans (ih (fun q hq => hrest q (List.mem_cons_of_mem p hq)) _)

/-- An exporter that goes on waits for the only call that it has brought into line. -/
theorem proceed_inLine (now : Nat) (rest : List Export) (c : Collector) {call : Nat}
    (h : call ∈ (proceed now rest c).1.inLine) :
    call ∈ c.inLine ∨ (proceed now rest c).2.1 = .sending call := by
  induction rest generalizing c with
  | nil => exact Or.inl h
  | cons p rest ih =>
      have hline {other : Nat}
          (hother : other ∈ (((c.arrive p.batch p.timeout).scan c.calls now).resume c.calls now).inLine) :
          other ∈ (c.arrive p.batch p.timeout).inLine ∨ other = c.calls := inLine_scan (inLine_resume hother)
      unfold proceed at h ⊢
      split at h
      · rename_i hdue
        exact Or.inl h
      · rename_i hdue
        rw [if_neg hdue]
        dsimp only at h ⊢
        split at h
        · rename_i hwaits
          rw [if_pos hwaits]
          exact (hline h).imp_right fun heq => congrArg Phase.sending heq.symm
        · rename_i hleft
          rw [if_neg hleft]
          rcases ih _ h with hcall | hsending
          · refine (hline hcall).imp_right fun heq => ?_
            rw [heq] at hcall
            exact absurd (Books.isWaiting_iff.mpr hcall) hleft
          · exact Or.inr hsending

theorem proceed_rest (now : Nat) (rest : List Export) (c : Collector) :
    (proceed now rest c).2.2 ⊆ rest := by
  induction rest generalizing c with
  | nil => exact List.Subset.refl _
  | cons p rest ih =>
      unfold proceed
      split
      · exact List.Subset.refl _
      · dsimp only
        split
        · exact List.subset_cons_self p rest
        · exact List.Subset.trans (ih _) (List.subset_cons_self p rest)

variable {e : Exporter} {c : Collector} {now : Nat}

theorem run_sent (hrest : ∀ p ∈ e.rest, p.Headed) : ReflTransGen (Sent now) c (e.run now c).1 := by
  unfold run
  cases e.phase with
  | finished instant => exact .refl
  | asleep instant =>
      dsimp only
      split
      · exact .refl
      · exact proceed_sent now hrest c
  | sending call =>
      have hresume : ReflTransGen (Sent now) c (c.resume call now) := .single (.resume call)
      dsimp only
      split
      · exact hresume
      · exact hresume.trans (proceed_sent now hrest _)

/-- Whoever is in line after an exporter went on was there before and the exporter was not waiting for it, or
the exporter waits for it now. -/
theorem run_inLine {call : Nat} (h : call ∈ (e.run now c).1.inLine) :
    (call ∈ c.inLine ∧ e.phase ≠ .sending call) ∨ (e.run now c).2.phase = .sending call := by
  unfold run at h ⊢
  cases hphase : e.phase with
  | finished instant =>
      rw [hphase] at h
      exact Or.inl ⟨h, nofun⟩
  | asleep instant =>
      rw [hphase] at h
      dsimp only at h ⊢
      split at h
      · exact Or.inl ⟨h, nofun⟩
      · rename_i hawake
        rw [if_neg hawake]
        exact (proceed_inLine now e.rest c h).imp_left fun hcall => ⟨hcall, nofun⟩
  | sending own =>
      rw [hphase] at h
      dsimp only at h ⊢
      split at h
      · rename_i hwaits
        rw [if_pos hwaits]
        by_cases heq : own = call
        · exact Or.inr (heq ▸ hphase)
        · exact Or.inl ⟨inLine_resume h, fun hsending => heq (Phase.sending.inj hsending)⟩
      · rename_i hleft
        rw [if_neg hleft]
        refine (proceed_inLine now e.rest _ h).imp_left fun hcall => ⟨inLine_resume hcall, ?_⟩
        intro hsending
        obtain rfl := Phase.sending.inj hsending
        exact hleft (Books.isWaiting_iff.mpr hcall)

theorem run_rest : (e.run now c).2.rest ⊆ e.rest := by
  unfold run
  cases e.phase with
  | finished instant => exact List.Subset.refl _
  | asleep instant =>
      dsimp only
      split
      · exact List.Subset.refl _
      · exact proceed_rest now e.rest c
  | sending call =>
      dsimp only
      split
      · exact List.Subset.refl _
      · exact proceed_rest now e.rest _

/-- The timer of an exporter that waits for a call is that of the call's match. -/
theorem timer?_of_sending {w : Waiting} (hline : c.inLine.Nodup) (hw : w ∈ c.waiting)
    (hsending : e.phase = .sending w.delivery.call) : e.timer? c = some (tick w.deadline) := by
  have hfind : c.waiting.find? (·.delivery.call == w.delivery.call) = some w := by
    cases hfound : c.waiting.find? (·.delivery.call == w.delivery.call) with
    | none => simpa using List.find?_eq_none.mp hfound w hw
    | some v =>
        have hcall : v.delivery.call = w.delivery.call := by simpa using List.find?_some hfound
        rw [List.inj_on_of_nodup_map hline (List.mem_of_find?_eq_some hfound) hw hcall]
  rw [timer?, hsending]
  simp only [hfind, Option.map_some]

end Exporter

/-! Timelines -/

namespace Timeline

theorem earliest_le_right {b instant : Nat} {a : Option Nat} (h : earliest a (some b) = some instant) :
    instant ≤ b := by
  cases a with
  | none =>
      obtain rfl : b = instant := by simpa [earliest] using h
      exact Nat.le_refl _
  | some a =>
      obtain rfl : min a b = instant := by simpa [earliest] using h
      exact Nat.min_le_right _ _

/-- The next timer is no later than that of any exporter. -/
theorem exists_timer?_le {t : Timeline} {e : Exporter} (he : e ∈ t.exporters) {instant : Nat}
    (htimer : e.timer? t.collector = some instant) : ∃ next, t.timer? = some next ∧ next ≤ instant := by
  have hkeeps (exporters : List Exporter) {first bound : Nat} (hfirst : first ≤ bound) :
      ∃ next, exporters.foldl (fun best e => earliest best (e.timer? t.collector)) (some first) = some next ∧
        next ≤ bound := by
    induction exporters generalizing first with
    | nil => exact ⟨first, rfl, hfirst⟩
    | cons e exporters ih =>
        rw [List.foldl_cons]
        cases e.timer? t.collector with
        | none => exact ih hfirst
        | some instant => exact ih ((Nat.min_le_left first instant).trans hfirst)
  obtain ⟨front, back, hsplit⟩ := List.append_of_mem he
  rw [timer?, hsplit, List.foldl_append, List.foldl_cons, htimer]
  cases front.foldl (fun best e => earliest best (e.timer? t.collector)) none with
  | none => exact hkeeps back (Nat.le_refl instant)
  | some best => exact hkeeps back (Nat.min_le_right best instant)

/-- A timeline whose collector has books, and in which an exporter waits for each call in line. -/
structure Booked (queueSize sendLimit : Nat) (t : Timeline) : Prop where
  books : ∃ x : Books, x.Reachable queueSize sendLimit ∧ x.now = t.now ∧ x.collector = t.collector
  awaited : ∀ call ∈ t.collector.inLine, ∃ (number : Nat) (e : Exporter),
    t.exporters[number]? = some e ∧ e.phase = .sending call
  headed : ∀ e ∈ t.exporters, ∀ p ∈ e.rest, p.Headed

variable {queueSize sendLimit : Nat} {t : Timeline}

theorem Booked.start (queueSize sendLimit : Nat) (dumps : Option Directory) :
    Booked queueSize sendLimit (start (.start queueSize sendLimit dumps)) where
  books := ⟨_, .start dumps, rfl, rfl⟩
  awaited := nofun
  headed := nofun

theorem Booked.spawn (h : Booked queueSize sendLimit t) {exports : List Export}
    (hexports : ∀ p ∈ exports, p.Headed) : Booked queueSize sendLimit (t.spawn exports) where
  books := h.books
  awaited call hcall := by
    obtain ⟨number, e, he, hsending⟩ := h.awaited call hcall
    exact ⟨number, e, List.getElem?_append_left (List.getElem?_eq_some_iff.mp he).1 ▸ he, hsending⟩
  headed e he := by
    rcases List.mem_append.mp he with he | he
    · exact h.headed e he
    · rw [List.mem_singleton.mp he]
      exact hexports

/-- What a foreground does keeps the books. -/
theorem Booked.moved (h : Booked queueSize sendLimit t) {c : Collector}
    (hc : ReflTransGen Fronted t.collector c) : Booked queueSize sendLimit (t.moved c) where
  books := by
    obtain ⟨x, hx, hnow, hcollector⟩ := h.books
    rw [← hcollector] at hc
    obtain ⟨x', hx', hnow', hcollector'⟩ := hx.fronted hc
    exact ⟨x', hx', hnow'.trans hnow, hcollector'⟩
  awaited call hcall := by
    exact h.awaited call (inLine_fronted hc ▸ hcall)
  headed := h.headed

/-- What one exporter does keeps the books. -/
theorem Booked.runOne (h : Booked queueSize sendLimit t) (number : Nat) :
    Booked queueSize sendLimit (t.runOne number) := by
  unfold Timeline.runOne
  split
  · exact h
  · rename_i e he
    have hmem : e ∈ t.exporters := List.mem_of_getElem? he
    refine ⟨?_, fun call hcall => ?_, fun e' he' p hp => ?_⟩
    · obtain ⟨x, hx, hnow, hcollector⟩ := h.books
      have hsent : ReflTransGen (Sent x.now) x.collector (e.run x.now x.collector).1 :=
        Exporter.run_sent (h.headed e hmem)
      obtain ⟨x', hx', hnow', hcollector'⟩ := hx.sent hsent
      exact ⟨x', hx', hnow'.trans hnow, hcollector'.trans (by rw [hnow, hcollector])⟩
    · rcases Exporter.run_inLine hcall with ⟨hbefore, hother⟩ | hsending
      · obtain ⟨number', e', he', hsending⟩ := h.awaited call hbefore
        have hne : number ≠ number' := by
          rintro rfl
          obtain rfl := Option.some.inj (he.symm.trans he')
          exact hother hsending
        exact ⟨number', e', (List.getElem?_set_ne hne).trans he', hsending⟩
      · exact ⟨number, _, List.getElem?_set_self (List.getElem?_eq_some_iff.mp he).1, hsending⟩
    · rcases List.mem_or_eq_of_mem_set he' with he' | rfl
      · exact h.headed e' he' p hp
      · exact h.headed e hmem p (Exporter.run_rest hp)

theorem Booked.settle (h : Booked queueSize sendLimit t) : Booked queueSize sendLimit t.settle := by
  unfold Timeline.settle
  suffices ∀ (numbers : List Nat) (t : Timeline), Booked queueSize sendLimit t →
      Booked queueSize sendLimit (numbers.foldl Timeline.runOne t) from this _ _ ⟨h.books, h.awaited, h.headed⟩
  intro numbers
  induction numbers with
  | nil => exact fun _ h => h
  | cons number numbers ih => exact fun t h => ih _ (h.runOne number)

/-- A clock that moves no further than the next timer passes nobody in line. -/
theorem Booked.advance (h : Booked queueSize sendLimit t) {alarm : Option Nat} {instant : Nat}
    (hnext : earliest alarm t.timer? = some instant) : Booked queueSize sendLimit (t.advance instant) where
  books := by
    obtain ⟨x, hx, hnow, hcollector⟩ := h.books
    have hsound := hx.sound
    refine ⟨{ x with now := max t.now instant }, hx.step (.wait ?_ fun w hw => ?_), rfl, hcollector⟩
    · rw [hnow]
      exact Nat.le_max_left _ _
    · obtain ⟨-, htimer, -⟩ := hsound.timely.line w hw
      have hline : t.collector.inLine.Nodup := hcollector ▸ hsound.fair.distinct
      rw [hcollector] at hw
      obtain ⟨number, e, he, hsending⟩ := h.awaited _ (List.mem_map_of_mem hw)
      obtain ⟨next, heq, hle⟩ :=
        exists_timer?_le (List.mem_of_getElem? he) (Exporter.timer?_of_sending hline hw hsending)
      rw [heq] at hnext
      exact max_le (hnow ▸ htimer) ((earliest_le_right hnext).trans hle)
  awaited := h.awaited
  headed := h.headed

/-- Whatever a foreground waits for, the books are kept for as long as it keeps them. -/
theorem Booked.turns {σ α : Type} {turn : Timeline → σ → Timeline × Turn σ α}
    (hturn : ∀ t s, Booked queueSize sendLimit t → Booked queueSize sendLimit (turn t s).1)
    (h : Booked queueSize sendLimit t) (alarm : σ → Option Nat) (fuel : Nat) (s : σ) :
    Booked queueSize sendLimit (t.turns turn alarm fuel s).1 := by
  induction fuel generalizing t s with
  | zero => exact h
  | succ fuel ih =>
      have hnext := hturn t s h
      rw [Timeline.turns]
      split
      · rename_i t' a heq
        rwa [heq] at hnext
      · rename_i t' s' heq
        rw [heq] at hnext
        exact ih hnext s'
      · rename_i t' s' heq
        rw [heq] at hnext
        split
        · exact ih hnext.settle s'
        · split
          · exact hnext
          · rename_i instant hinstant
            exact ih (hnext.advance hinstant) s'

theorem Booked.drive {σ α : Type} {turn : Timeline → σ → Timeline × Turn σ α}
    (hturn : ∀ t s, Booked queueSize sendLimit t → Booked queueSize sendLimit (turn t s).1)
    {alarm : σ → Option Nat} (h : Booked queueSize sendLimit t) {s : σ} {t' : Timeline} {found : Option α}
    (hdrive : t.drive turn alarm s = (t', found)) : Booked queueSize sendLimit t' := by
  have hturns := h.turns hturn alarm (8 * t.work + 64) s
  rw [Timeline.drive] at hdrive
  rwa [hdrive] at hturns

theorem Booked.await {α : Type} {find : Timeline → Timeline × Turn Unit α}
    (hfind : ∀ t, Booked queueSize sendLimit t → Booked queueSize sendLimit (find t).1)
    (h : Booked queueSize sendLimit t) (limit : Option Nat) :
    Booked queueSize sendLimit (t.await find limit).1 := by
  unfold Timeline.await
  split
  rename_i t' found hdrive
  refine h.drive (fun t _ ht => ?_) hdrive
  have hfound := hfind t ht
  cases heq : find t with
  | mk t₁ turn =>
      rw [heq] at hfound
      cases turn with
      | again s => exact hfound
      | blocked s =>
          dsimp only
          split <;> exact hfound
      | done a => exact hfound

/-! Foregrounds -/

theorem Booked.sleep (h : Booked queueSize sendLimit t) (time : Nat) :
    Booked queueSize sendLimit (t.sleep time) := by
  -- unfolded as a function: at its arguments it would be run
  have hsleep : Timeline.sleep = fun t time =>
      (t.await (fun t => (t, Turn.blocked ())) (some (tick (t.now + time))) : Timeline × Option Unit).1 := rfl
  rw [hsleep]
  exact h.await (fun _ ht => ht) _

theorem Booked.pause (h : Booked queueSize sendLimit t) (time : Nat) :
    Booked queueSize sendLimit (t.pause time) := (h.sleep time).settle

theorem Booked.join (h : Booked queueSize sendLimit t) (number : Nat) :
    Booked queueSize sendLimit (t.join number).1 := h.await (fun _ ht => ht) _

theorem Booked.acquire (h : Booked queueSize sendLimit t) (limit : Option Nat) :
    Booked queueSize sendLimit (t.acquire limit).1 := by
  refine h.await (fun t ht => ?_) _
  split
  · rename_i session c hacquire
    exact ht.moved (.single (fronted_acquire hacquire))
  · exact ht

theorem Booked.receive (h : Booked queueSize sendLimit t) (limit : Option Nat) :
    Booked queueSize sendLimit (t.receive limit).1 := by
  refine h.await (fun t ht => ?_) _
  split
  · rename_i d c hreceive
    exact ht.moved (.single (fronted_receive (Or.inl ⟨d, hreceive⟩)))
  · rename_i c hreceive
    exact ht.moved (.single (fronted_receive (Or.inr hreceive)))
  · exact ht

theorem Booked.invoke (h : Booked queueSize sendLimit t) {a : Aftermath}
    (ha : ∀ e ∈ a.exports, ∃ header : Option String, e.value.2 = header.bind CallTimeout.read?) :
    Booked queueSize sendLimit (t.invoke a) := by
  unfold Timeline.invoke
  split
  · have hexports : ∀ p ∈ a.exports.map fun e => (⟨t.now + e.after, e.value.1, e.value.2⟩ : Export),
        p.Headed := by
      intro p hp
      obtain ⟨e, he, rfl⟩ := List.mem_map.mp hp
      exact ha e he
    have hspawned := h.spawn hexports
    exact ⟨hspawned.books, hspawned.awaited, hspawned.headed⟩
  · exact h

end Timeline

/-! Probes -/

/-- Where a turn of a run leads a collector to, if anywhere. -/
def RunTurn.Leads {σ α : Type} (c : Collector) : RunTurn σ α → Prop
  | .blocked => True
  | .next after _ => ReflTransGen Fronted c after
  | .finished after _ => ReflTransGen Fronted c after

namespace DownloadRun

variable {c before : Collector}

theorem leads_finish (h : ReflTransGen Fronted before c) (d : Download) : (finish c d).Leads before :=
  (h.tail (fronted_reset c)).trans (fronted_dismiss c.reset)

theorem leads_proceed (h : ReflTransGen Fronted before c) (r : DownloadRun) : (proceed c r).Leads before := by
  unfold proceed
  split
  · exact leads_finish h r.download
  · exact h

theorem leads_drain (tail : Nat) (m : Moment) (r : DownloadRun) : (drain tail m c r).Leads c := by
  unfold drain collect
  split
  · exact leads_finish .refl r.download
  · split
    · rename_i d after hreceive
      exact leads_proceed (.single (fronted_receive (Or.inl ⟨d, hreceive⟩))) _
    · rename_i after hreceive
      exact ReflTransGen.single (fronted_receive (Or.inr hreceive))
    · split
      · trivial
      · exact fronted_dismiss c

theorem leads_turn (s : RunSettings) (m : Moment) (r : DownloadRun) : (turn s m c r).Leads c := by
  unfold turn
  split
  · exact leads_finish .refl _
  · split
    · split
      · exact leads_proceed .refl _
      · exact leads_drain _ m r
    · exact leads_drain _ m r

end DownloadRun

namespace UploadRun

variable {c before : Collector}

theorem leads_finish (h : ReflTransGen Fronted before c) (u : Upload) : (finish c u).Leads before :=
  (h.tail (fronted_reset c)).trans (fronted_dismiss c.reset)

theorem leads_proceed (h : ReflTransGen Fronted before c) (r : UploadRun) : (proceed c r).Leads before := by
  unfold proceed
  split
  · exact leads_finish h r.upload
  · exact h

theorem leads_collect (m : Moment) (r : UploadRun) : (collect m c r).Leads c := by
  unfold collect
  split
  · rename_i d after hreceive
    exact leads_proceed (.single (fronted_receive (Or.inl ⟨d, hreceive⟩))) _
  · rename_i after hreceive
    exact ReflTransGen.single (fronted_receive (Or.inr hreceive))
  · split
    · trivial
    · exact fronted_dismiss c

theorem leads_turn (s : RunSettings) (m : Moment) (r : UploadRun) : (turn s m c r).Leads c := by
  unfold turn
  split
  · exact leads_finish .refl _
  · split
    · split
      · unfold settle
        dsimp only
        split
        · exact leads_proceed (.single (fronted_register c _)) _
        · exact leads_proceed .refl _
      · exact leads_collect m r
    · split
      · exact leads_finish .refl _
      · exact leads_collect m r

end UploadRun

namespace Timeline

variable {queueSize sendLimit : Nat} {t : Timeline}

theorem Booked.runTurn {σ α : Type} {turn : Moment → Collector → σ → RunTurn σ α}
    (hturn : ∀ m c r, (turn m c r).Leads c) (h : Booked queueSize sendLimit t) (cancelAt : Option Nat) (r : σ) :
    Booked queueSize sendLimit (runTurn cancelAt turn t r).1 := by
  have hleads := hturn ⟨t.now, t.isCancelled cancelAt, t.isOpen⟩ t.collector r
  unfold Timeline.runTurn
  split
  · exact h
  · rename_i c r' heq
    rw [heq] at hleads
    exact h.moved hleads
  · rename_i c outcome heq
    rw [heq] at hleads
    exact h.moved hleads

/-- A probe keeps the books, whether or not it returns. -/
theorem Booked.probe {σ α : Type} {begin : Nat → Collector → Collector × σ}
    {turn : Moment → Collector → σ → RunTurn σ α} (hbegin : ∀ now c, Fronted c (begin now c).1)
    (hturn : ∀ m c r, (turn m c r).Leads c) {a : Aftermath}
    (ha : ∀ e ∈ a.exports, ∃ header : Option String, e.value.2 = header.bind CallTimeout.read?)
    (h : Booked queueSize sendLimit t) (cancelAt : Option Nat) (alarm : σ → Nat) :
    Booked queueSize sendLimit (t.probe cancelAt a begin alarm turn).1 := by
  have hacquired := h.acquire none
  unfold Timeline.probe
  extract_lets begun
  split
  · rename_i t₁ hacquire
    rwa [hacquire] at hacquired
  · rename_i t₁ session hacquire
    rw [hacquire] at hacquired
    split
    rename_i c run hrun
    extract_lets t₂ invoked t₃ pending
    have hbegin₁ := hbegin t₁.now t₁.collector
    rw [hrun] at hbegin₁
    have hbegun : Booked queueSize sendLimit t₂ := hacquired.moved (.single hbegin₁)
    have hinvoked : Booked queueSize sendLimit t₃ := by
      unfold t₃
      split
      · exact hbegun.invoke ha
      · exact hbegun
    split
    rename_i t₄ outcome hdrive
    exact hinvoked.drive (fun t r ht => ht.runTurn hturn cancelAt r) hdrive

theorem Booked.upload (h : Booked queueSize sendLimit t) (s : RunSettings) (cancelAt : Option Nat)
    (trace : TraceId) (size : Nat) (action : Timed (Except ActionFault String)) {a : Aftermath}
    (ha : ∀ e ∈ a.exports, ∃ header : Option String, e.value.2 = header.bind CallTimeout.read?) :
    Booked queueSize sendLimit (t.upload s cancelAt trace size action a).1 :=
  h.probe (fun _ c => fronted_register c _) (fun m _ r => UploadRun.leads_turn s m r) ha cancelAt _

theorem Booked.download (h : Booked queueSize sendLimit t) (s : RunSettings) (cancelAt : Option Nat)
    (wallClock : Nat) (trace : TraceId) (contentId : String) (payload : Payload) {a : Aftermath}
    (ha : ∀ e ∈ a.exports, ∃ header : Option String, e.value.2 = header.bind CallTimeout.read?) :
    Booked queueSize sendLimit (t.download s cancelAt wallClock trace contentId payload a).1 :=
  h.probe (fun _ c => fronted_register c _) (fun m _ r => DownloadRun.leads_turn s m r) ha cancelAt _

/-- So no match ever stands in line past its timer, nor are there more in the queue than places. -/
theorem Booked.in_time (h : Booked queueSize sendLimit t) :
    t.collector.queue.length ≤ max 1 queueSize ∧ ∀ w ∈ t.collector.waiting, t.now ≤ tick w.deadline := by
  obtain ⟨x, hx, hnow, hcollector⟩ := h.books
  have hsound := hx.sound
  rw [← hcollector, ← hnow, ← hsound.capacity]
  exact ⟨hsound.fair.queue_length_le, fun w hw => (hsound.timely.line w hw).2.1⟩

end Timeline

end ContentProbe
