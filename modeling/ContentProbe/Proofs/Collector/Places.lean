import ContentProbe.Proofs.Collector.Steps
import Mathlib.Data.List.Nodup
import Mathlib.Data.List.Perm.Basic

/-!
The places of the queue. A place is taken by a match in the queue, set aside for a call in line, or free, and
there are never more than the queue was given. As long as somebody may take from the queue no place stays
free while a call stands in line without one: a place that comes free is set aside for the first of them at
once.
-/

namespace ContentProbe

/-- Of distinct keys, one element holds its own, and the others are those with another key. -/
theorem perm_cons_filter_ne {α κ : Type} [BEq κ] [LawfulBEq κ] {key : α → κ} {l : List α} {a : α}
    (hnodup : (l.map key).Nodup) (ha : a ∈ l) : l.Perm (a :: l.filter (key · != key a)) := by
  induction l with
  | nil => simp at ha
  | cons b l ih =>
      rw [List.map_cons, List.nodup_cons] at hnodup
      rcases List.mem_cons.mp ha with rfl | ha
      · have hrest : l.filter (key · != key a) = l := by
          rw [List.filter_eq_self]
          intro c hc
          rw [bne_iff_ne]
          exact fun heq => hnodup.1 (heq ▸ List.mem_map_of_mem hc)
        rw [List.filter_cons_of_neg (by simp), hrest]
      · have hne : key b ≠ key a := fun heq => hnodup.1 (heq ▸ List.mem_map_of_mem ha)
        rw [List.filter_cons_of_pos (by simpa using hne)]
        exact ((ih hnodup.2 ha).cons b).trans (List.Perm.swap a b _)

namespace Collector

/-- The calls in line. -/
def inLine (c : Collector) : List Nat := c.waiting.map (·.delivery.call)

/-- The calls in line have distinct numbers. A place is set aside for each of them that is granted one, and
none is free while the queue is open and a call is granted none. -/
structure Fair (c : Collector) : Prop where
  distinct : c.inLine.Nodup
  places : c.queue.length + c.grants ≤ c.capacity
  full : c.closed = false → ∀ w ∈ c.waiting, w.granted = false → c.freePlaces = 0

theorem grants_append (c : Collector) (line : List Waiting) :
    grants { c with waiting := c.waiting ++ line } = c.grants + (line.filter (·.granted)).length := by
  simp [grants]

/-- What a call in line contributes to the grants. -/
theorem grants_eq_of_mem {c : Collector} (hdistinct : c.inLine.Nodup) {w : Waiting} (hw : w ∈ c.waiting) :
    c.grants = (if w.granted then 1 else 0) +
      ((c.waiting.filter (·.delivery.call != w.delivery.call)).filter (·.granted)).length := by
  have hperm := (perm_cons_filter_ne hdistinct hw).filter (·.granted)
  rw [grants, hperm.length_eq, List.filter_cons]
  split <;> simp [Nat.add_comm]

theorem Fair.start (queueSize sendLimit : Nat) (dumps : Option Directory) :
    (Collector.start queueSize sendLimit dumps).Fair :=
  ⟨.nil, Nat.zero_le _, fun _ _ hw => nomatch hw⟩

theorem Fair.arrive {c : Collector} (h : c.Fair) (batch : Wire.Batch) (granted : Option Nat) :
    (c.arrive batch granted).Fair := ⟨h.distinct, h.places, h.full⟩

/-- Whoever comes to the end of the line is granted a place if one is free. -/
theorem Fair.line {c : Collector} (h : c.Fair) {w : Waiting} (hnew : w.delivery.call ∉ c.inLine)
    (hgranted : w.granted = decide (0 < c.freePlaces)) (arrived : List Arrival) (counters : Counters) :
    Fair { c with arrived, counters, waiting := c.waiting ++ [w] } := by
  have hgrants := grants_append c [w]
  have hsplit : c.freePlaces = c.capacity - (c.queue.length + c.grants) := rfl
  have hplaces := h.places
  refine ⟨?_, ?_, fun hopen v hv hv' => ?_⟩
  · rw [inLine, List.map_append, List.map_singleton, ← List.concat_eq_append]
    exact h.distinct.concat hnew
  · change c.queue.length + grants { c with waiting := c.waiting ++ [w] } ≤ c.capacity
    rw [hgrants]
    cases hw : w.granted with
    | false => simpa [hw] using hplaces
    | true =>
        have hfree : 0 < c.freePlaces := by simpa [hw] using hgranted.symm
        simp only [List.filter_cons, hw, if_true, List.filter_nil, List.length_singleton]
        omega
  · have hnone : c.freePlaces = 0 := by
      rcases List.mem_append.mp hv with hv | hv
      · exact h.full hopen v hv hv'
      · rw [List.mem_singleton.mp hv, hgranted, decide_eq_false_iff_not] at hv'
        omega
    have hw : w.granted = false := by simpa [hnone] using hgranted
    change c.capacity - (c.queue.length + grants { c with waiting := c.waiting ++ [w] }) = 0
    rw [hgrants, List.filter_singleton, hw]
    exact hnone

theorem Fair.scan {c : Collector} (h : c.Fair) (hnew : ∀ a ∈ c.arrived, a.call ∉ c.inLine) (call now : Nat) :
    (c.scan call now).Fair := by
  unfold Collector.scan
  split
  · exact h
  · rename_i a hfind
    have hcall : a.call = call := by simpa using List.find?_some hfind
    cases c.registry.scan a.batch with
    | skipped => exact ⟨h.distinct, h.places, h.full⟩
    | unmatched => exact ⟨h.distinct, h.places, h.full⟩
    | matched index session => exact h.line (hcall ▸ hnew a (List.mem_of_find?_eq_some hfind)) rfl _ _

theorem mem_filter_call {c : Collector} {call : Nat} {v : Waiting}
    (hv : v ∈ c.waiting.filter (·.delivery.call != call)) : v ∈ c.waiting := List.mem_of_mem_filter hv

/-- A call gives up: its place, if it had one, is free again, which only happens once the queue is closed. -/
theorem Fair.drop {c : Collector} (h : c.Fair) {w : Waiting} (hw : w ∈ c.waiting)
    (hgives : c.closed = true ∨ w.granted = false) : (c.drop w.delivery.call).Fair := by
  have hgrants := grants_eq_of_mem h.distinct hw
  have hplaces := h.places
  refine ⟨h.distinct.sublist (List.filter_sublist.map _), ?_, fun hopen v hv hv' => ?_⟩
  · change c.queue.length + ((c.waiting.filter (·.delivery.call != w.delivery.call)).filter _).length ≤
      c.capacity
    omega
  · have hnone := h.full hopen v (mem_filter_call hv) hv'
    rcases hgives with hclosed | hungranted
    · exact absurd (hclosed.symm.trans hopen) (by simp)
    · rw [hungranted, if_neg Bool.false_ne_true, Nat.zero_add] at hgrants
      change c.capacity - (c.queue.length + ((c.waiting.filter _).filter _).length) = 0
      rw [← hgrants]
      exact hnone

/-- A match takes the place that was set aside for it. -/
theorem Fair.enqueue {c : Collector} (h : c.Fair) {w : Waiting} (hw : w ∈ c.waiting)
    (hgranted : w.granted = true) : (c.enqueue w.delivery).Fair := by
  have hgrants := grants_eq_of_mem h.distinct hw
  rw [hgranted, if_pos rfl] at hgrants
  have hplaces := h.places
  have hsum : (c.enqueue w.delivery).queue.length + (c.enqueue w.delivery).grants =
      c.queue.length + c.grants := by
    change (c.queue ++ [w.delivery]).length +
      ((c.waiting.filter (·.delivery.call != w.delivery.call)).filter (·.granted)).length = _
    rw [List.length_append, List.length_singleton]
    omega
  refine ⟨h.distinct.sublist (List.filter_sublist.map _), ?_, fun hopen v hv hv' => ?_⟩
  · rw [hsum]
    exact hplaces
  · rw [freePlaces, hsum]
    exact h.full hopen v (mem_filter_call hv) hv'

theorem Fair.resume {c : Collector} (h : c.Fair) (call now : Nat) : (c.resume call now).Fair := by
  rcases resume_cases c call now with heq | ⟨w, hw, rfl, ⟨heq, hgives⟩ | ⟨heq, -, hgranted⟩⟩
  · rw [heq]
    exact h
  · rw [heq]
    exact h.drop hw (hgives.imp_right (·.1))
  · rw [heq]
    exact h.enqueue hw hgranted

/-- Setting a place aside grants one more call, or finds all of them granted. -/
theorem grantFirst_cases (line : List Waiting) :
    (grantFirst line = line ∧ ∀ w ∈ line, w.granted = true) ∨
      ∃ before w after, line = before ++ w :: after ∧ w.granted = false ∧ (∀ v ∈ before, v.granted = true) ∧
        grantFirst line = before ++ { w with granted := true } :: after := by
  induction line with
  | nil => exact Or.inl ⟨rfl, by simp⟩
  | cons v line ih =>
      cases hv : v.granted with
      | false => exact Or.inr ⟨[], v, line, rfl, hv, by simp, by simp [grantFirst, hv]⟩
      | true =>
          rcases ih with ⟨heq, hall⟩ | ⟨before, w, after, rfl, hw, hbefore, heq⟩
          · exact Or.inl ⟨by simp [grantFirst, hv, heq], by simpa [hv] using hall⟩
          · refine Or.inr ⟨v :: before, w, after, rfl, hw, by simpa [hv] using hbefore, ?_⟩
            simp [grantFirst, hv, heq]

theorem inLine_grantFirst (c : Collector) : (grantFirst c.waiting).map (·.delivery.call) = c.inLine := by
  have hsame := congrArg (List.map Delivery.call) (map_delivery_grantFirst c.waiting)
  simpa [inLine, List.map_map, Function.comp_def] using hsame

theorem Fair.take {c after : Collector} {d : Delivery} (h : c.Fair) (htake : c.take = some (d, after)) :
    after.Fair := by
  obtain ⟨rest, hqueue, rfl⟩ := take_eq_some_iff.mp htake
  have hplaces := h.places
  have hline := inLine_grantFirst c
  have hlength : c.queue.length = rest.length + 1 := by simp [hqueue]
  rcases grantFirst_cases c.waiting with ⟨heq, hall⟩ | ⟨front, w, back, hwaiting, hw, hfront, heq⟩
  · refine ⟨?_, ?_, fun _ v hv hv' => ?_⟩
    · simpa [inLine, hline] using h.distinct
    · simp only [grants, heq] at hplaces ⊢
      omega
    · rw [heq] at hv
      simp [hall v hv] at hv'
  · have hgrants : ((grantFirst c.waiting).filter (·.granted)).length = c.grants + 1 := by
      rw [grants, heq, hwaiting]
      simp [List.filter_append, hw, Nat.add_assoc]
    have hwmem : w ∈ c.waiting := by simp [hwaiting]
    refine ⟨?_, ?_, fun hopen v _ _ => ?_⟩
    · simpa [inLine, hline] using h.distinct
    · change rest.length + ((grantFirst c.waiting).filter (·.granted)).length ≤ c.capacity
      omega
    · have hnone : c.capacity - (c.queue.length + c.grants) = 0 := h.full hopen w hwmem hw
      change c.capacity - (rest.length + ((grantFirst c.waiting).filter (·.granted)).length) = 0
      omega

theorem Fair.close {c : Collector} (h : c.Fair) : c.close.Fair :=
  ⟨h.distinct, h.places, fun hopen => nomatch hopen⟩

/-- What sessions do to the registry changes no place. -/
theorem Fair.session {c : Collector} (h : c.Fair) (registry : Registry) (claim : Claim)
    (sessions : Nat) : Fair { c with registry, claim, sessions } :=
  ⟨h.distinct, h.places, h.full⟩

/-- There are never more matches in the queue than it has places. -/
theorem Fair.queue_length_le {c : Collector} (h : c.Fair) : c.queue.length ≤ c.capacity :=
  Nat.le_trans (Nat.le_add_right _ _) h.places

end Collector

end ContentProbe
