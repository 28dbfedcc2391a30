import ContentProbe.Collector.Basic

/-!
What the steps of a collector do, one statement for each step: how it changes the calls that arrived, the
calls in line and the queue.
-/

namespace ContentProbe.Collector

/-- A scan takes its call out of those that arrived. If the batch matches, the match goes to the end of the
line. -/
theorem scan_cases (c : Collector) (call now : Nat) :
    c.scan call now = c ∨
      ∃ a ∈ c.arrived, ∃ (counters : Counters) (found : Option Waiting),
        c.scan call now =
            { c with arrived := c.arrived.filter (·.call != a.call), counters,
                     waiting := c.waiting ++ found.toList } ∧
          ∀ w ∈ found, w.delivery.call = a.call ∧ w.delivery.batch = a.batch ∧
            c.registry.scan a.batch = .matched w.delivery.index w.delivery.session := by
  unfold scan
  split
  · exact Or.inl rfl
  · rename_i a hfind
    have hcall : a.call = call := by simpa using List.find?_some hfind
    refine Or.inr ⟨a, List.mem_of_find?_eq_some hfind, ?_⟩
    subst hcall
    cases hscan : c.registry.scan a.batch with
    | skipped => exact ⟨c.counters, none, by simp, by simp⟩
    | unmatched => exact ⟨_, none, by simp; rfl, by simp⟩
    | matched index session => exact ⟨_, some _, rfl, by simp⟩

/-- A waiting call goes on waiting, gives up, or has its match put at the end of the queue. It gives up if
nobody takes from the queue again, or at its deadline if no place is set aside for it. -/
theorem resume_cases (c : Collector) (call now : Nat) :
    c.resume call now = c ∨
      ∃ w ∈ c.waiting, w.delivery.call = call ∧
        ((c.resume call now = c.drop call ∧
            (c.closed = true ∨ (w.granted = false ∧ w.deadline ≤ now))) ∨
          (c.resume call now = c.enqueue w.delivery ∧ c.closed = false ∧ w.granted = true)) := by
  unfold resume
  split
  · exact Or.inl rfl
  · rename_i w hfind
    have hcall : w.delivery.call = call := by simpa using List.find?_some hfind
    have hmem : w ∈ c.waiting := List.mem_of_find?_eq_some hfind
    split
    · rename_i hclosed
      exact Or.inr ⟨w, hmem, hcall, Or.inl ⟨rfl, Or.inl hclosed⟩⟩
    · rename_i hopen
      rw [Bool.not_eq_true] at hopen
      split
      · rename_i hgranted
        exact Or.inr ⟨w, hmem, hcall, Or.inr ⟨rfl, hopen, hgranted⟩⟩
      · rename_i hgranted
        rw [Bool.not_eq_true] at hgranted
        split
        · rename_i hdeadline
          exact Or.inr ⟨w, hmem, hcall, Or.inl ⟨rfl, Or.inr ⟨hgranted, hdeadline⟩⟩⟩
        · exact Or.inl rfl

/-- Setting a place aside changes nobody's match. -/
theorem map_delivery_grantFirst (line : List Waiting) :
    (grantFirst line).map (·.delivery) = line.map (·.delivery) := by
  induction line with
  | nil => rfl
  | cons w line ih =>
      unfold grantFirst
      split
      · simp [ih]
      · simp

theorem take_eq_some_iff {c after : Collector} {d : Delivery} :
    c.take = some (d, after) ↔
      ∃ rest, c.queue = d :: rest ∧ after = { c with queue := rest, waiting := grantFirst c.waiting } := by
  unfold take
  cases c.queue with
  | nil => simp
  | cons e rest =>
      simp only [Option.some.injEq, Prod.mk.injEq, List.cons.injEq]
      constructor
      · rintro ⟨rfl, rfl⟩
        exact ⟨rest, ⟨rfl, rfl⟩, rfl⟩
      · rintro ⟨_, ⟨rfl, rfl⟩, rfl⟩
        exact ⟨rfl, rfl⟩

theorem receive_eq_own_iff {c after : Collector} {d : Delivery} :
    c.receive = .own d after ↔ c.take = some (d, after) ∧ c.claim = .held d.session := by
  unfold receive
  cases c.take with
  | none => simp
  | some taken =>
      obtain ⟨e, rest⟩ := taken
      simp only [Option.some.injEq, Prod.mk.injEq]
      split
      · rename_i hown
        simp only [Reception.own.injEq]
        constructor
        · rintro ⟨rfl, rfl⟩
          exact ⟨⟨rfl, rfl⟩, hown⟩
        · exact fun h => h.1
      · rename_i hforeign
        simp only [reduceCtorEq, false_iff]
        rintro ⟨⟨rfl, rfl⟩, hown⟩
        exact hforeign hown

theorem receive_eq_foreign_iff {c after : Collector} :
    c.receive = .foreign after ↔ ∃ d, c.take = some (d, after) ∧ c.claim ≠ .held d.session := by
  unfold receive
  cases c.take with
  | none => simp
  | some taken =>
      obtain ⟨e, rest⟩ := taken
      simp only [Option.some.injEq, Prod.mk.injEq]
      split
      · rename_i hown
        simp only [reduceCtorEq, false_iff]
        rintro ⟨d, ⟨rfl, rfl⟩, hforeign⟩
        exact hforeign hown
      · rename_i hforeign
        simp only [Reception.foreign.injEq]
        constructor
        · rintro rfl
          exact ⟨e, ⟨rfl, rfl⟩, hforeign⟩
        · rintro ⟨d, ⟨-, rfl⟩, -⟩
          rfl

end ContentProbe.Collector
