import ContentProbe.Proofs.Trace.Conversion
import Mathlib.Data.String.Basic

/-!
What the conversion of a report comes to, whatever was reported. The checks of a report stand in one order: its
ids, its times, its attributes, and then each event with the time before the attributes. The first check that
fails is the fault, so the reports that pass all of them are those that have a span; and the span keeps every
part of its report, of the attributes the last scalar of each key.
-/

namespace ContentProbe

open ContentProbe.Text

/-! The scalars that attributes keep -/

/-- The last scalar that is reported under a key. Lists, tables and attributes without a value give none. -/
def Wire.lastScalar? (key : String) (reported : List Wire.Attribute) : Option Scalar :=
  ((reported.filter (·.key = key)).filterMap fun w => w.value.bind Scalar.ofValue?).getLast?

namespace Attributes

/-- One value for each key, in the order of the keys. -/
def Sorted (entries : List (String × Scalar)) : Prop := entries.Pairwise fun e f => e.1 < f.1

theorem mem_insertEntry {key : String} {value : Scalar} {entries : List (String × Scalar)}
    {e : String × Scalar} (h : e ∈ insertEntry key value entries) : e = (key, value) ∨ e ∈ entries := by
  induction entries with
  | nil => exact Or.inl (List.mem_singleton.mp h)
  | cons first rest ih =>
      unfold insertEntry at h
      split at h
      · exact (List.mem_cons.mp h).imp id id
      · split at h
        · exact (List.mem_cons.mp h).imp id (List.mem_cons_of_mem _)
        · rcases List.mem_cons.mp h with rfl | h
          · exact Or.inr List.mem_cons_self
          · exact (ih h).imp id (List.mem_cons_of_mem _)

theorem Sorted.insertEntry {entries : List (String × Scalar)} (h : Sorted entries) (key : String)
    (value : Scalar) : Sorted (insertEntry key value entries) := by
  induction entries with
  | nil => exact List.pairwise_singleton _ _
  | cons first rest ih =>
      obtain ⟨hfirst, hrest⟩ := List.pairwise_cons.mp h
      unfold Attributes.insertEntry
      split
      · rename_i hlt
        refine List.pairwise_cons.mpr ⟨fun e he => ?_, h⟩
        rcases List.mem_cons.mp he with rfl | he
        · exact hlt
        · exact hlt.trans (hfirst e he)
      · split
        · rename_i heq
          exact List.pairwise_cons.mpr ⟨fun e he => heq ▸ hfirst e he, hrest⟩
        · rename_i hle hne
          refine List.pairwise_cons.mpr ⟨fun e he => ?_, ih hrest⟩
          rcases mem_insertEntry he with rfl | he
          · exact lt_of_le_of_ne (not_lt.mp hle) (Ne.symm hne)
          · exact hfirst e he

theorem lookup_of_mem {entries : List (String × Scalar)} (h : Sorted entries) {key : String} {value : Scalar}
    (hmem : (key, value) ∈ entries) : entries.lookup key = some value := by
  induction entries with
  | nil => cases hmem
  | cons first rest ih =>
      obtain ⟨hfirst, hrest⟩ := List.pairwise_cons.mp h
      rcases List.mem_cons.mp hmem with rfl | hmem
      · simp
      · have hne : (key == first.1) = false := beq_eq_false_iff_ne.mpr (hfirst _ hmem).ne'
        rw [List.lookup_cons, hne]
        exact ih hrest hmem

theorem sorted_foldl_push (reported : List Wire.Attribute) : Sorted (reported.foldl push empty).entries := by
  induction reported using List.reverseRecOn with
  | nil => exact List.Pairwise.nil
  | append_singleton reported w ih =>
      rw [List.foldl_append, List.foldl_cons, List.foldl_nil, push]
      split
      · exact ih.insertEntry _ _
      · exact ih

/-- Whatever follows under a key, a scalar that was stored stays until the next scalar of that key. -/
theorem get?_foldl_push (reported : List Wire.Attribute) (key : String) :
    (reported.foldl push empty).get? key = Wire.lastScalar? key reported := by
  induction reported using List.reverseRecOn with
  | nil => rfl
  | append_singleton reported w ih =>
      rw [List.foldl_append, List.foldl_cons, List.foldl_nil, push]
      unfold Wire.lastScalar? at ih ⊢
      rw [List.filter_append, List.filterMap_append, List.getLast?_append, ← ih]
      cases hscalar : w.value.bind Scalar.ofValue? with
      | none => by_cases hkey : w.key = key <;> simp [hkey, hscalar]
      | some scalar =>
          dsimp only
          rw [get?_insert]
          by_cases hkey : w.key = key
          · simp [hkey, hscalar]
          · simp [hkey, Ne.symm hkey]

/-- Attributes that hold the last scalar of each reported key, once, and nothing else. -/
structure Keeps (reported : List Wire.Attribute) (a : Attributes) : Prop where
  held : ∀ key, a.get? key = Wire.lastScalar? key reported
  only : ∀ key value, (key, value) ∈ a.entries → Wire.lastScalar? key reported = some value
  once : (a.entries.map (·.1)).Nodup

theorem keeps_foldl_push (reported : List Wire.Attribute) : Keeps reported (reported.foldl push empty) where
  held := get?_foldl_push reported
  only key value hmem := by
    rw [← get?_foldl_push]
    exact lookup_of_mem (sorted_foldl_push reported) hmem
  once := List.pairwise_map.mpr ((sorted_foldl_push reported).imp fun h => h.ne)

end Attributes

/-! Checks in their order -/

namespace Span

/-- A check that a report passes or fails, and the fault of failing it. -/
structure Check where
  passed : Bool
  fault : Fault

/-- The fault of the first check that fails. -/
def firstFault? (checks : List Check) : Option Fault := (checks.find? (!·.passed)).map (·.fault)

/-- No attribute lacks a key, whatever its value. -/
def keyCheck (span : String) (reported : List Wire.Attribute) : Check :=
  ⟨reported.all (·.key ≠ ""), .emptyKey span⟩

/-- An event has a time, and then its attributes have keys. -/
def eventChecks (span : String) (e : Wire.Event) : List Check :=
  [⟨e.time ≠ 0, .noEventTime span e.name⟩, keyCheck span e.attributes]

/-- The checks of a report, in their order. -/
def checks (w : Wire.Span) : List Check :=
  [⟨w.traceId.length = 16 && w.traceId.any (· ≠ 0), .traceId w.traceId.length⟩,
    ⟨w.spanId.length = 8 && w.spanId.any (· ≠ 0), .spanId w.spanId.length⟩,
    ⟨w.start ≠ 0, .noStart w.name⟩,
    ⟨w.start ≤ w.finish, .endBeforeStart w.name w.start.toNat w.finish.toNat⟩,
    keyCheck w.name w.attributes] ++ w.events.flatMap (eventChecks w.name)

theorem firstFault?_cons (c : Check) (rest : List Check) :
    firstFault? (c :: rest) = if c.passed then firstFault? rest else some c.fault := by
  unfold firstFault?
  cases hpassed : c.passed <;> simp [hpassed]

theorem firstFault?_append (first rest : List Check) :
    firstFault? (first ++ rest) = (firstFault? first).or (firstFault? rest) := by
  rw [firstFault?, List.find?_append, Option.map_or]
  rfl

theorem firstFault?_eq_none_iff {checks : List Check} :
    firstFault? checks = none ↔ ∀ c ∈ checks, c.passed = true := by
  simp [firstFault?]

/-- Why there is no result. -/
def fault? {α : Type} : Except Fault α → Option Fault
  | .ok _ => none
  | .error f => some f

theorem fault?_eq_some_iff {α : Type} {r : Except Fault α} {f : Fault} : fault? r = some f ↔ r = .error f := by
  cases r <;> simp [fault?]

theorem fault?_eq_none_iff {α : Type} {r : Except Fault α} : fault? r = none ↔ ∃ a, r = .ok a := by
  cases r <;> simp [fault?]

theorem attributesOf_eq (span : String) (reported : List Wire.Attribute) :
    attributesOf span reported =
      if (keyCheck span reported).passed then .ok (reported.foldl Attributes.push .empty)
      else .error (.emptyKey span) := by
  have hpassed : (keyCheck span reported).passed = !reported.any (·.key.isEmpty) := by
    rw [Bool.eq_iff_iff]
    simp [keyCheck]
  rw [attributesOf, Attributes.ofWire?, hpassed]
  cases reported.any (·.key.isEmpty) <;> rfl

theorem fault?_attributesOf (span : String) (reported : List Wire.Attribute) :
    fault? (attributesOf span reported) = firstFault? [keyCheck span reported] := by
  rw [attributesOf_eq, firstFault?_cons]
  split <;> rfl

theorem fault?_eventOf (span : String) (e : Wire.Event) :
    fault? (eventOf span e) = firstFault? (eventChecks span e) := by
  rw [eventChecks, firstFault?_cons, ← fault?_attributesOf, eventOf]
  by_cases htime : e.time = 0
  · simp [htime, throw, throwThe, MonadExceptOf.throw, bind, Except.bind, fault?]
  · cases attributesOf span e.attributes <;> simp [htime, bind, Except.bind, fault?, pure, Except.pure]

/-- Of the events, the first one that fails a check decides. -/
theorem fault?_mapM_eventOf (span : String) (events : List Wire.Event) :
    fault? (events.mapM (eventOf span)) = firstFault? (events.flatMap (eventChecks span)) := by
  induction events with
  | nil => rfl
  | cons e events ih =>
      rw [List.mapM_cons, List.flatMap_cons, firstFault?_append, ← fault?_eventOf, ← ih]
      cases eventOf span e with
      | error f => rfl
      | ok event => cases events.mapM (eventOf span) <;> rfl

/-- The fault of a report is that of the first check that it fails. -/
theorem fault?_ofWire (w : Wire.Span) : fault? (ofWire w) = firstFault? (checks w) := by
  have htrace : (w.traceId.length = 16 && w.traceId.any (· ≠ 0)) =
      ((TraceId.ofBytes? w.traceId).filter (!·.isZero)).isSome := by
    rw [Bool.eq_iff_iff, TraceId.isSome_nonzero_iff]
    simp
  have hid : (w.spanId.length = 8 && w.spanId.any (· ≠ 0)) =
      ((SpanId.ofBytes? w.spanId).filter (!·.isZero)).isSome := by
    rw [Bool.eq_iff_iff, SpanId.isSome_nonzero_iff]
    simp
  rw [checks, htrace, hid, List.cons_append, List.cons_append, List.cons_append, List.cons_append,
    List.cons_append, List.nil_append]
  simp only [firstFault?_cons]
  rw [← fault?_mapM_eventOf, ofWire]
  cases (TraceId.ofBytes? w.traceId).filter (!·.isZero) with
  | none => simp [throw, throwThe, MonadExceptOf.throw, fault?]
  | some t =>
      cases (SpanId.ofBytes? w.spanId).filter (!·.isZero) with
      | none => simp [throw, throwThe, MonadExceptOf.throw, fault?]
      | some i =>
          by_cases hstart : w.start = 0
          · simp [hstart, throw, throwThe, MonadExceptOf.throw, bind, Except.bind, fault?]
          · by_cases hfinish : w.finish < w.start
            · simp [hstart, hfinish, throw, throwThe, MonadExceptOf.throw, bind, Except.bind, fault?]
            · have hordered := UInt64.not_lt.mp hfinish
              rw [attributesOf_eq]
              cases (keyCheck w.name w.attributes).passed with
              | false => simp [hstart, hfinish, hordered, bind, Except.bind, fault?, keyCheck]
              | true =>
                  cases w.events.mapM (eventOf w.name) <;>
                    simp [hstart, hfinish, hordered, bind, Except.bind, pure, Except.pure, fault?]

/-! What a span keeps -/

/-- An event that keeps the name, the time and the attributes of its report. -/
structure KeepsEvent (reported : Wire.Event) (e : Event) : Prop where
  name : e.name = reported.name
  time : e.time = reported.time.toNat
  attributes : e.attributes.Keeps reported.attributes

/-- A span that keeps every part of its report. A parent id of another length than eight bytes counts as none. -/
structure Keeps (reported : Wire.Span) (s : Span) : Prop where
  traceId : s.trace.toBytes = reported.traceId
  spanId : s.id.toBytes = reported.spanId
  parentId : s.parent.toBytes =
    if reported.parentId.length = 8 then reported.parentId else List.replicate 8 0
  name : s.name = reported.name
  start : s.start = reported.start.toNat
  finish : s.finish = reported.finish.toNat
  attributes : s.attributes.Keeps reported.attributes
  events : List.Forall₂ KeepsEvent reported.events s.events

theorem keeps_of_attributesOf {span : String} {reported : List Wire.Attribute} {a : Attributes}
    (h : attributesOf span reported = .ok a) : a.Keeps reported := by
  rw [attributesOf_eq] at h
  split at h
  · rw [← Except.ok.inj h]
    exact Attributes.keeps_foldl_push reported
  · cases h

theorem keepsEvent_of_eventOf {span : String} {reported : Wire.Event} {e : Event}
    (h : eventOf span reported = .ok e) : KeepsEvent reported e := by
  unfold eventOf at h
  split at h
  · cases h
  · cases hattributes : attributesOf span reported.attributes with
    | error f =>
        rw [hattributes] at h
        cases h
    | ok a =>
        rw [hattributes] at h
        obtain rfl := Except.ok.inj h
        exact ⟨rfl, rfl, keeps_of_attributesOf hattributes⟩

theorem keepsEvents_of_mapM {span : String} {reported : List Wire.Event} {events : List Event}
    (h : reported.mapM (eventOf span) = .ok events) : List.Forall₂ KeepsEvent reported events := by
  induction reported generalizing events with
  | nil =>
      obtain rfl := Except.ok.inj h
      exact .nil
  | cons first rest ih =>
      rw [List.mapM_cons] at h
      cases hfirst : eventOf span first with
      | error f =>
          rw [hfirst] at h
          cases h
      | ok e =>
          cases hrest : rest.mapM (eventOf span) with
          | error f =>
              rw [hfirst, hrest] at h
              cases h
          | ok es =>
              rw [hfirst, hrest] at h
              obtain rfl := Except.ok.inj h
              exact .cons (keepsEvent_of_eventOf hfirst) (ih hrest)

theorem toBytes_parent (bytes : List UInt8) :
    ((SpanId.ofBytes? bytes).getD .zero).toBytes =
      if bytes.length = 8 then bytes else List.replicate 8 0 := by
  cases h : SpanId.ofBytes? bytes with
  | some parent =>
      have hlength : bytes.length = 8 := by
        unfold SpanId.ofBytes? at h
        split at h
        · assumption
        · cases h
      rw [if_pos hlength, Option.getD_some, SpanId.toBytes_of_ofBytes? h]
  | none =>
      have hlength : bytes.length ≠ 8 := by
        unfold SpanId.ofBytes? at h
        split at h
        · cases h
        · assumption
      rw [if_neg hlength]
      decide

theorem keeps_of_ofWire {w : Wire.Span} {s : Span} (h : ofWire w = .ok s) : Keeps w s := by
  obtain ⟨-, hid, -, -, hattributes, hevents, hparent, hname, hstart, hfinish⟩ := ofWire_eq_ok_iff.mp h
  exact
    { traceId := (traceId_of_ofWire h).symm
      spanId := SpanId.toBytes_of_ofBytes? (Option.filter_eq_some_iff.mp hid).1
      parentId := by rw [hparent, toBytes_parent]
      name := hname
      start := hstart
      finish := hfinish
      attributes := keeps_of_attributesOf hattributes
      events := keepsEvents_of_mapM hevents }

/-- What it takes for a report to be a span. -/
structure WellFormed (w : Wire.Span) : Prop where
  traceId : w.traceId.length = 16 ∧ ∃ b ∈ w.traceId, b ≠ 0
  spanId : w.spanId.length = 8 ∧ ∃ b ∈ w.spanId, b ≠ 0
  start : w.start ≠ 0
  ordered : w.start ≤ w.finish
  keys : ∀ a ∈ w.attributes, a.key ≠ ""
  events : ∀ e ∈ w.events, e.time ≠ 0 ∧ ∀ a ∈ e.attributes, a.key ≠ ""

theorem eventChecks_passed_iff (span : String) (e : Wire.Event) :
    (∀ c ∈ eventChecks span e, c.passed = true) ↔ e.time ≠ 0 ∧ ∀ a ∈ e.attributes, a.key ≠ "" := by
  simp [eventChecks, keyCheck]

theorem wellFormed_iff (w : Wire.Span) : WellFormed w ↔ firstFault? (checks w) = none := by
  rw [firstFault?_eq_none_iff, checks, List.forall_mem_append, List.forall_mem_flatMap]
  simp only [eventChecks_passed_iff]
  constructor
  · rintro ⟨htrace, hid, hstart, hordered, hkeys, hevents⟩
    refine ⟨?_, hevents⟩
    simpa [keyCheck] using ⟨htrace, hid, hstart, hordered, hkeys⟩
  · rintro ⟨hspan, hevents⟩
    obtain ⟨htrace, hid, hstart, hordered, hkeys⟩ := by simpa [keyCheck] using hspan
    exact ⟨htrace, hid, hstart, hordered, hkeys, hevents⟩

/-- How a report becomes a span. It does if its ids have their lengths and are not all zero, it starts and does
not end before it starts, no attribute of it lacks a key, be its value kept or not, and every event has a time
and no attribute without a key. If not, the fault is that of the first check that fails, in the order of the
checks. The span keeps every part of the report, its events in their order, and of the attributes the last
scalar of each key and nothing else. -/
theorem conversion_exact (w : Wire.Span) :
    ((∃ s, ofWire w = .ok s) ↔ WellFormed w) ∧
    (∀ f, ofWire w = .error f ↔ firstFault? (checks w) = some f) ∧
    (∀ s, ofWire w = .ok s → Keeps w s) := by
  refine ⟨?_, fun f => ?_, fun s => keeps_of_ofWire⟩
  · rw [wellFormed_iff, ← fault?_ofWire, fault?_eq_none_iff]
  · rw [← fault?_ofWire, fault?_eq_some_iff]

/-! A report that says things twice -/

/-- A status is reported as a text, then as a number, then as a list and without a value. -/
def restated : Wire.Span :=
  .ofNumbers 7 1 "query" 5 8
    [⟨"status", some (.string "200")⟩, ⟨"status", some (.int 404)⟩, ⟨"peer", some (.table [])⟩,
      ⟨"status", some (.array [.int 500])⟩, ⟨"status", none⟩]
    [⟨"sent", 6, [⟨"peer", some (.bool true)⟩], 0⟩, ⟨"received", 7, [], 0⟩]

/-- The same report without a start, an event of which has no time and an attribute without key. -/
def restatedLate : Wire.Span :=
  { restated with start := 0, events := [⟨"sent", 0, [⟨"", none⟩], 0⟩] }

/-- The number is what the span keeps; and the report without a start fails for that, not for its event. -/
theorem restated_conversion :
    (∃ s, ofWire restated = .ok s ∧ Keeps restated s ∧ s.attributes.get? "status" = some (.int 404) ∧
      s.attributes.get? "peer" = none) ∧
    ofWire restatedLate = .error (.noStart "query") := by
  obtain ⟨hok, -, hkeeps⟩ := conversion_exact restated
  obtain ⟨-, hfault, -⟩ := conversion_exact restatedLate
  have hwellFormed : WellFormed restated := (wellFormed_iff restated).mpr (by decide)
  obtain ⟨s, hs⟩ := hok.mpr hwellFormed
  have hkept := hkeeps s hs
  refine ⟨⟨s, hs, hkept, ?_, ?_⟩, (hfault _).mpr (by decide)⟩
  · rw [hkept.attributes.held]
    decide
  · rw [hkept.attributes.held]
    decide

end Span

end ContentProbe
