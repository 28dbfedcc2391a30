import ContentProbe.Proofs.Matcher.Coverage

/-!
The first hit of a list of matchers in a batch. Spans come before matchers: the span that decides is the first
one to satisfy any matcher, and the first matcher that it satisfies is the answer. Neither the nesting of the
spans in scopes and resources matters, nor what comes after that span.
-/

namespace ContentProbe.Matcher

/-- The matcher with a number holds of the span at a place. -/
def Hit (matchers : List Matcher) (spans : List Wire.Span) (place index : Nat) : Prop :=
  ∃ s m, spans[place]? = some s ∧ matchers[index]? = some m ∧ m.holds s = true

variable {matchers : List Matcher} {spans : List Wire.Span} {s : Wire.Span}

theorem hit_iff_of_getElem? {p j : Nat} (hs : spans[p]? = some s) :
    Hit matchers spans p j ↔ ∃ m, matchers[j]? = some m ∧ m.holds s = true := by
  simp [Hit, hs]

/-- A span satisfies no matcher, whatever place it has. -/
theorem hit?_eq_none_iff {p : Nat} (hs : spans[p]? = some s) :
    hit? matchers s = none ↔ ∀ j, ¬Hit matchers spans p j := by
  simp only [hit_iff_of_getElem? hs, hit?, List.findIdx?_eq_none_iff, not_exists, not_and,
    Bool.not_eq_true]
  constructor
  · exact fun h j m hm => h m (List.mem_of_getElem? hm)
  · intro h m hm
    obtain ⟨j, hj⟩ := List.mem_iff_getElem?.mp hm
    exact h j m hj

theorem hit?_eq_some_iff {p i : Nat} (hs : spans[p]? = some s) :
    hit? matchers s = some i ↔ Hit matchers spans p i ∧ ∀ j < i, ¬Hit matchers spans p j := by
  simp only [hit_iff_of_getElem? hs, hit?, List.findIdx?_eq_some_iff_getElem, not_exists, not_and,
    List.getElem?_eq_some_iff]
  constructor
  · rintro ⟨hi, hholds, hbefore⟩
    refine ⟨⟨matchers[i], ⟨hi, rfl⟩, hholds⟩, ?_⟩
    rintro j hj m ⟨_, rfl⟩
    exact hbefore j hj
  · rintro ⟨⟨m, ⟨hi, rfl⟩, hholds⟩, hbefore⟩
    exact ⟨hi, hholds, fun j hj => hbefore j hj _ ⟨by omega, rfl⟩⟩

/-- The span that decides has only spans without hits before it. -/
theorem firstHit?_eq_some_iff {b : Wire.Batch} {i : Nat} :
    firstHit? matchers b = some i ↔
      ∃ p, Hit matchers b.spans p i ∧ (∀ j < i, ¬Hit matchers b.spans p j) ∧
        ∀ q < p, ∀ j, ¬Hit matchers b.spans q j := by
  rw [firstHit?, List.findSome?_eq_some_iff]
  constructor
  · rintro ⟨before, s, after, hspans, hhit, hnone⟩
    have hs : b.spans[before.length]? = some s := by simp [hspans]
    obtain ⟨hfirst, hleast⟩ := (hit?_eq_some_iff hs).mp hhit
    refine ⟨before.length, hfirst, hleast, fun q hq => ?_⟩
    have hv : b.spans[q]? = some before[q] := by
      rw [hspans, List.getElem?_append_left hq, List.getElem?_eq_getElem hq]
    exact (hit?_eq_none_iff hv).mp (hnone _ (List.getElem_mem hq))
  · rintro ⟨p, hfirst, hleast, hbefore⟩
    obtain ⟨s, m, hs, -⟩ := id hfirst
    obtain ⟨hp, rfl⟩ := List.getElem?_eq_some_iff.mp hs
    refine ⟨b.spans.take p, b.spans[p], b.spans.drop (p + 1), by simp,
      (hit?_eq_some_iff hs).mpr ⟨hfirst, hleast⟩, fun v hv => ?_⟩
    obtain ⟨q, hq, rfl⟩ := List.mem_take_iff_getElem.mp hv
    have hqp : q < p := by omega
    exact (hit?_eq_none_iff (List.getElem?_eq_getElem (by omega))).mpr (hbefore q hqp)

theorem firstHit?_eq_none_iff_hit {b : Wire.Batch} :
    firstHit? matchers b = none ↔ ∀ p j, ¬Hit matchers b.spans p j := by
  rw [firstHit?_eq_none_iff]
  constructor
  · rintro hnone p j ⟨s, m, hs, hm, hholds⟩
    have hfalse := hnone s (List.mem_of_getElem? hs) m (List.mem_of_getElem? hm)
    exact Bool.false_ne_true (hfalse.symm.trans hholds)
  · intro hnone s hs m hm
    obtain ⟨p, hp⟩ := List.mem_iff_getElem?.mp hs
    obtain ⟨j, hj⟩ := List.mem_iff_getElem?.mp hm
    exact Bool.eq_false_iff.mpr fun hholds => hnone p j ⟨s, m, hp, hj, hholds⟩

theorem findSome?_flatMap {α β γ : Type} (f : β → Option γ) (parts : α → List β) (groups : List α) :
    (groups.flatMap parts).findSome? f = groups.findSome? fun group => (parts group).findSome? f := by
  induction groups with
  | nil => rfl
  | cons group groups ih =>
      rw [List.flatMap_cons, List.findSome?_append, ih, List.findSome?_cons]
      cases (parts group).findSome? f <;> rfl

/-- Going through resources, the scopes of each, and the spans of each scope comes to the same. -/
theorem firstHit?_nested (matchers : List Matcher) (b : Wire.Batch) :
    firstHit? matchers b =
      b.resources.findSome? fun r => r.scopes.findSome? fun s => s.spans.findSome? (hit? matchers) := by
  simp only [firstHit?, Wire.Batch.spans, Wire.ResourceSpans.spans, findSome?_flatMap]

/-- The search through resources, scopes and spans finds the hit at the first place that has one, and of those
the one with the smallest number; it finds none only if there is none. It sees the spans in their order and not
how they are nested, and nothing that comes after a hit. -/
theorem first_hit_decides (matchers : List Matcher) (b : Wire.Batch) :
    (∀ i, firstHit? matchers b = some i ↔
      ∃ p, Hit matchers b.spans p i ∧ (∀ j < i, ¬Hit matchers b.spans p j) ∧
        ∀ q < p, ∀ j, ¬Hit matchers b.spans q j) ∧
    (firstHit? matchers b = none ↔ ∀ p j, ¬Hit matchers b.spans p j) ∧
    (firstHit? matchers b =
      b.resources.findSome? fun r => r.scopes.findSome? fun s => s.spans.findSome? (hit? matchers)) ∧
    (∀ b' : Wire.Batch, b'.spans = b.spans → firstHit? matchers b' = firstHit? matchers b) ∧
    ∀ (b' : Wire.Batch) (i : Nat), b.spans <+: b'.spans → firstHit? matchers b = some i →
      firstHit? matchers b' = some i := by
  refine ⟨fun i => firstHit?_eq_some_iff, firstHit?_eq_none_iff_hit, firstHit?_nested matchers b,
    fun b' hspans => ?_, fun b' i hextends hhit => ?_⟩
  · rw [firstHit?, firstHit?, hspans]
  · exact hextends.findSome?_eq_some hhit

/-- A scope without spans, a resource without scopes, and the span of the second matcher before that of the
first one. -/
def scattered : Wire.Batch :=
  .nested [[[]], [], [[.ofNumbers 7 1 "z" 10 20 [] []], [.ofNumbers 7 2 "y" 10 20 [] []]],
    [[.ofNumbers 8 3 "x" 10 20 [] []]]]

/-- The span decides before the matcher does, also where the spans stand in one scope and more follow. -/
theorem scattered_first_hit :
    firstHit? [.name "x", .name "y"] scattered = some 1 ∧
      firstHit? [.name "x", .name "y"] (.ofSpans (scattered.spans ++ scattered.spans)) = some 1 := by
  have hhit : firstHit? [.name "x", .name "y"] scattered = some 1 := by decide
  obtain ⟨-, -, -, -, hextended⟩ := first_hit_decides [.name "x", .name "y"] scattered
  exact ⟨hhit, hextended (.ofSpans (scattered.spans ++ scattered.spans)) 1 ⟨scattered.spans, rfl⟩ hhit⟩

end ContentProbe.Matcher
