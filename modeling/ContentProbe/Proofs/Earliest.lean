import ContentProbe.Upload
import Mathlib.Data.List.Nodup
import Mathlib.Data.Prod.Lex

/-!
The folds that measurements are made of depend on which elements a list has, not on their order or on how
often one occurs. This holds of the least number of a list, of the interval that spans cover, of the number
of distinct elements, and of the first element by a key as far as the key goes.
-/

namespace ContentProbe

/-- Lists with the same elements are empty together. -/
theorem eq_nil_of_mem_iff {α : Type} {xs ys : List α} (hmem : ∀ x, x ∈ xs ↔ x ∈ ys) (h : xs = []) :
    ys = [] := by
  subst h
  exact List.eq_nil_iff_forall_not_mem.mpr fun y hy => List.not_mem_nil ((hmem y).mpr hy)

section FirstBy

variable {α κ : Type} [LinearOrder κ]

/-- The order goes by a key. -/
def OrdersBy (before : α → α → Bool) (key : α → κ) : Prop :=
  ∀ a b, before a b = true ↔ key a < key b

/-- An element of a list that no other one of the list goes before. -/
def IsFirst (key : α → κ) (xs : List α) (a : α) : Prop :=
  a ∈ xs ∧ ∀ x ∈ xs, key a ≤ key x

/-- Scanning on from a candidate finds a first element of the candidate and the rest. -/
theorem isFirst_foldl {before : α → α → Bool} {key : α → κ} (hkey : OrdersBy before key)
    (best : α) (rest : List α) :
    IsFirst key (best :: rest)
      (rest.foldl (fun best x => if before x best then x else best) best) := by
  induction rest generalizing best with
  | nil => exact ⟨by simp, by simp⟩
  | cons x rest ih =>
      simp only [List.foldl_cons]
      obtain ⟨hmem, hle⟩ := ih (if before x best then x else best)
      by_cases hx : before x best = true
      · have hlt : key x < key best := (hkey x best).mp hx
        simp only [hx, if_true] at hmem hle ⊢
        refine ⟨List.mem_cons_of_mem _ hmem, ?_⟩
        intro y hy
        rcases List.mem_cons.mp hy with rfl | hy
        · exact (hle x (by simp)).trans hlt.le
        · exact hle y hy
      · have hge : key best ≤ key x := not_lt.mp (fun h => hx ((hkey x best).mpr h))
        simp only [hx, Bool.false_eq_true, if_false] at hmem hle ⊢
        refine ⟨?_, ?_⟩
        · rcases List.mem_cons.mp hmem with h | h
          · rw [h]
            simp
          · simp [h]
        · intro y hy
          rcases List.mem_cons.mp hy with rfl | hy
          · exact hle y (by simp)
          · rcases List.mem_cons.mp hy with rfl | hy
            · exact (hle best (by simp)).trans hge
            · exact hle y (by simp [hy])

theorem firstBy?_eq_none_iff (before : α → α → Bool) (xs : List α) :
    firstBy? before xs = none ↔ xs = [] := by
  cases xs <;> simp [firstBy?]

theorem isFirst_of_firstBy? {before : α → α → Bool} {key : α → κ} (hkey : OrdersBy before key)
    {xs : List α} {a : α} (h : firstBy? before xs = some a) : IsFirst key xs a := by
  cases xs with
  | nil => simp [firstBy?] at h
  | cons best rest =>
      simp only [firstBy?, Option.some.injEq] at h
      exact h ▸ isFirst_foldl hkey best rest

/-- First elements of lists with the same elements have the same key. -/
theorem IsFirst.key_eq {key : α → κ} {xs ys : List α} {a b : α} (hmem : ∀ x, x ∈ xs ↔ x ∈ ys)
    (ha : IsFirst key xs a) (hb : IsFirst key ys b) : key a = key b :=
  le_antisymm (ha.2 b ((hmem b).mpr hb.1)) (hb.2 a ((hmem a).mp ha.1))

/-- What is read off the first element depends on the elements only, as long as first elements of one key
show the same. -/
theorem firstBy?_map_congr {β : Type} {before : α → α → Bool} {key : α → κ}
    (hkey : OrdersBy before key) {xs ys : List α} (f : α → β) (hmem : ∀ x, x ∈ xs ↔ x ∈ ys)
    (hshow : ∀ a b, IsFirst key xs a → IsFirst key xs b → key a = key b → f a = f b) :
    (firstBy? before xs).map f = (firstBy? before ys).map f := by
  cases hx : firstBy? before xs with
  | none =>
      have hys : ys = [] := eq_nil_of_mem_iff hmem ((firstBy?_eq_none_iff before xs).mp hx)
      rw [(firstBy?_eq_none_iff before ys).mpr hys]
  | some a =>
      have ha := isFirst_of_firstBy? hkey hx
      cases hy : firstBy? before ys with
      | none =>
          have hys : ys = [] := (firstBy?_eq_none_iff before ys).mp hy
          have hmema := (hmem a).mp ha.1
          simp [hys] at hmema
      | some b =>
          have hb := isFirst_of_firstBy? hkey hy
          have hb' : IsFirst key xs b :=
            ⟨(hmem b).mpr hb.1, fun x hx => hb.2 x ((hmem x).mp hx)⟩
          simp only [Option.map_some, Option.some.injEq]
          exact hshow a b ha hb' (ha.key_eq hmem hb)

end FirstBy

section Numbers

theorem min?_congr {xs ys : List Nat} (hmem : ∀ x, x ∈ xs ↔ x ∈ ys) : xs.min? = ys.min? := by
  cases hx : xs.min? with
  | none =>
      simp [eq_nil_of_mem_iff hmem (List.min?_eq_none_iff.mp hx)]
  | some a =>
      obtain ⟨ha, hle⟩ := List.min?_eq_some_iff.mp hx
      exact (List.min?_eq_some_iff.mpr
        ⟨(hmem a).mp ha, fun y hy => hle y ((hmem y).mpr hy)⟩).symm

theorem max?_congr {xs ys : List Nat} (hmem : ∀ x, x ∈ xs ↔ x ∈ ys) : xs.max? = ys.max? := by
  cases hx : xs.max? with
  | none =>
      simp [eq_nil_of_mem_iff hmem (List.max?_eq_none_iff.mp hx)]
  | some a =>
      obtain ⟨ha, hle⟩ := List.max?_eq_some_iff.mp hx
      exact (List.max?_eq_some_iff.mpr
        ⟨(hmem a).mp ha, fun y hy => hle y ((hmem y).mpr hy)⟩).symm

end Numbers

section Distinct

variable {α : Type} [DecidableEq α]

theorem nodup_eraseDups (xs : List α) : xs.eraseDups.Nodup := by
  match xs with
  | [] => simp
  | x :: xs =>
      have hshort : (xs.filter fun y => !y == x).length < xs.length + 1 :=
        Nat.lt_succ_of_le (List.length_filter_le _ xs)
      rw [List.eraseDups_cons, List.nodup_cons]
      exact ⟨by simp, nodup_eraseDups (xs.filter fun y => !y == x)⟩
termination_by xs.length

theorem eraseDups_perm {xs ys : List α} (hmem : ∀ x, x ∈ xs ↔ x ∈ ys) :
    xs.eraseDups.Perm ys.eraseDups :=
  (List.perm_ext_iff_of_nodup (nodup_eraseDups xs) (nodup_eraseDups ys)).mpr fun x => by
    simpa using hmem x

end Distinct

/-! Intervals -/

namespace Interval

/-- Widens an interval to cover spans. -/
def extend (i : Interval) (spans : List Span) : Interval :=
  ⟨(spans.map (·.start)).foldl min i.start, (spans.map (·.finish)).foldl max i.finish⟩

theorem foldl_widen (i : Interval) (spans : List Span) :
    spans.foldl widen (some i) = some (i.extend spans) := by
  induction spans generalizing i with
  | nil => rfl
  | cons s spans ih => simp only [List.foldl_cons, widen, ih, extend, List.map_cons]

/-- The interval of spans goes from their least start to their greatest end. -/
theorem ofSpans?_eq_some_iff {spans : List Span} {i : Interval} :
    ofSpans? spans = some i ↔
      (spans.map (·.start)).min? = some i.start ∧ (spans.map (·.finish)).max? = some i.finish := by
  cases spans with
  | nil => simp [ofSpans?]
  | cons s spans =>
      obtain ⟨start, finish⟩ := i
      simp only [ofSpans?, List.foldl_cons, widen, foldl_widen, extend, List.map_cons, List.min?_cons',
        List.max?_cons', Option.some.injEq, Interval.mk.injEq]

theorem ofSpans?_eq_none_iff {spans : List Span} : ofSpans? spans = none ↔ spans = [] := by
  cases spans with
  | nil => simp [ofSpans?]
  | cons s spans => simp [ofSpans?, widen, foldl_widen]

/-- The interval of spans that end no sooner than they start does not either. -/
theorem ofSpans?_ordered {spans : List Span} (hordered : ∀ s ∈ spans, s.start ≤ s.finish) {i : Interval}
    (hi : ofSpans? spans = some i) : i.start ≤ i.finish := by
  obtain ⟨hstart, hfinish⟩ := ofSpans?_eq_some_iff.mp hi
  obtain ⟨s, hs, hsStart⟩ := List.mem_map.mp (List.min?_eq_some_iff.mp hstart).1
  calc i.start = s.start := hsStart.symm
    _ ≤ s.finish := hordered s hs
    _ ≤ i.finish := (List.max?_eq_some_iff.mp hfinish).2 _ (List.mem_map_of_mem hs)

/-- The ends of an interval are those of the spans, and there are none exactly if there are no spans. -/
theorem ofSpans?_ends (spans : List Span) :
    (ofSpans? spans).map (·.start) = (spans.map (·.start)).min? ∧
      (ofSpans? spans).map (·.finish) = (spans.map (·.finish)).max? := by
  cases hi : ofSpans? spans with
  | none => simp [ofSpans?_eq_none_iff.mp hi]
  | some i =>
      obtain ⟨hstart, hfinish⟩ := ofSpans?_eq_some_iff.mp hi
      exact ⟨hstart.symm, hfinish.symm⟩

theorem ofSpans?_congr {xs ys : List Span} (hmem : ∀ s, s ∈ xs ↔ s ∈ ys) :
    ofSpans? xs = ofSpans? ys := by
  have hmap (f : Span → Nat) : ∀ n, n ∈ xs.map f ↔ n ∈ ys.map f := by
    intro n
    simp only [List.mem_map, hmem]
  apply Option.ext
  intro i
  rw [ofSpans?_eq_some_iff, ofSpans?_eq_some_iff, min?_congr (hmap _), max?_congr (hmap _)]

end Interval

end ContentProbe
