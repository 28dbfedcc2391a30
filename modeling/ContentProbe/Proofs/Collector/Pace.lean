import ContentProbe.Collector.Timeline
import ContentProbe.Proofs.Collector.Steps
import ContentProbe.Proofs.Time.Tick
import Mathlib.Algebra.BigOperators.Ring.List
import Mathlib.Algebra.Order.BigOperators.Group.List

/-!
How many turns a timeline can take. An exporter has its batches left, to wait for each of them to be due and for
each of them to be taken; when its timer has rung it has less left after it went on. A match that comes into the
queue is one that an exporter need not wait for any more. So there is a number which everything that happens
lowers, or leaves as it is while the foreground comes nearer to its end; and the turns that a timeline is given
are more than that.
-/

namespace ContentProbe

open ContentProbe.Time Collector

namespace Exporter

/-- What is left for an exporter to do. One that sleeps less than its next batch needs has to sleep again. -/
def left (e : Exporter) : Nat :=
  match e.phase with
  | .finished _ => 0
  | .asleep instant => 2 * e.rest.length + if e.rest.head?.any (instant < ·.due) then 2 else 1
  | .sending _ => 2 * e.rest.length + 2

theorem left_le (e : Exporter) : e.left ≤ 2 * (e.rest.length + 1) := by
  unfold left
  cases e.phase with
  | finished instant => exact Nat.zero_le _
  | asleep instant =>
      dsimp only
      split <;> omega
  | sending call => exact Nat.le_refl _

/-- One that sleeps until its next batch is due has to wait for it once. -/
theorem left_asleep {p : Export} {alarm : Nat} (hdue : p.due ≤ alarm) (started : Nat) (rest : List Export) :
    left ⟨started, .asleep alarm, p :: rest⟩ = 2 * (p :: rest).length + 1 := by
  simp [left, Nat.not_lt.mpr hdue]

/-- What an exporter that goes on has left afterwards. -/
theorem left_proceed_le (started now : Nat) (rest : List Export) (c : Collector) :
    let next := proceed now rest c
    left ⟨started, next.2.1, next.2.2⟩ ≤ 2 * rest.length + 1 := by
  induction rest generalizing c with
  | nil => exact Nat.zero_le _
  | cons p rest ih =>
      unfold proceed
      split
      · exact (left_asleep (le_tick p.due) started rest).le
      · dsimp only
        split
        · simp only [left, List.length_cons]
          omega
        · refine (ih _).trans ?_
          rw [List.length_cons]
          omega

/-- An exporter whose next batch is due does not go to sleep over it. -/
theorem left_proceed_le_of_due (started now : Nat) {rest : List Export} (hdue : ∀ p ∈ rest.head?, p.due ≤ now)
    (c : Collector) :
    let next := proceed now rest c
    left ⟨started, next.2.1, next.2.2⟩ ≤ 2 * rest.length := by
  cases rest with
  | nil => exact Nat.zero_le _
  | cons p rest =>
      unfold proceed
      rw [if_neg (Nat.not_lt.mpr (hdue p rfl))]
      dsimp only
      split
      · simp only [left, List.length_cons]
        omega
      · refine (left_proceed_le started now rest _).trans ?_
        rw [List.length_cons]
        omega

theorem isWaiting_drop (c : Collector) (call : Nat) : (c.drop call).isWaiting call = false := by
  simp [Collector.drop, Collector.isWaiting]

theorem isWaiting_enqueue (c : Collector) (d : Delivery) : (c.enqueue d).isWaiting d.call = false := by
  simp [Collector.enqueue, Collector.isWaiting]

/-- A call whose time is over leaves the line. -/
theorem isWaiting_resume {c : Collector} {call now : Nat}
    (h : ∀ w, c.waiting.find? (·.delivery.call == call) = some w → w.deadline ≤ now) :
    (c.resume call now).isWaiting call = false := by
  unfold Collector.resume
  cases hfind : c.waiting.find? (·.delivery.call == call) with
  | none =>
      rw [Collector.isWaiting, List.any_eq_false]
      exact fun w hw => List.find?_eq_none.mp hfind w hw
  | some w =>
      have hcall : w.delivery.call = call := by simpa using List.find?_some hfind
      subst hcall
      dsimp only
      split
      · exact isWaiting_drop c _
      · split
        · exact isWaiting_enqueue c _
        · rw [if_pos (h w hfind)]
          exact isWaiting_drop c _

variable {e : Exporter} {c : Collector} {now : Nat}

/-- To go on never leaves an exporter more to do. -/
theorem left_run_le : (e.run now c).2.left ≤ e.left := by
  obtain ⟨started, phase, rest⟩ := e
  unfold run
  cases phase with
  | finished instant => exact Nat.le_refl _
  | asleep instant =>
      dsimp only
      split
      · exact Nat.le_refl _
      · refine (left_proceed_le started now rest c).trans ?_
        simp only [left]
        split <;> omega
  | sending call =>
      dsimp only
      split
      · exact Nat.le_refl _
      · refine (left_proceed_le started now rest _).trans ?_
        simp only [left]
        omega

/-- An exporter whose timer has rung has less left after it went on. -/
theorem left_run_lt {instant : Nat} (htimer : e.timer? c = some instant) (hrung : instant ≤ now) :
    (e.run now c).2.left < e.left := by
  obtain ⟨started, phase, rest⟩ := e
  unfold run
  cases phase with
  | finished instant => cases htimer
  | asleep alarm =>
      obtain rfl := Option.some.inj htimer
      dsimp only
      rw [if_neg (Nat.not_lt.mpr hrung)]
      cases hhead : rest.head?.any (alarm < ·.due) with
      | true =>
          have hleft : left ⟨started, .asleep alarm, rest⟩ = 2 * rest.length + 2 := by simp [left, hhead]
          rw [hleft]
          exact Nat.lt_succ_of_le (left_proceed_le started now rest c)
      | false =>
          have hleft : left ⟨started, .asleep alarm, rest⟩ = 2 * rest.length + 1 := by simp [left, hhead]
          rw [hleft]
          refine Nat.lt_succ_of_le (left_proceed_le_of_due started now (fun p hp => ?_) c)
          rw [Option.any_eq_false] at hhead
          exact (not_lt.mp (of_decide_eq_false (hhead p hp))).trans hrung
  | sending call =>
      have hover : (c.resume call now).isWaiting call = false := by
        refine isWaiting_resume fun w hw => (le_tick _).trans ?_
        simp only [timer?, hw, Option.map_some, Option.some.injEq] at htimer
        exact htimer.trans_le hrung
      dsimp only
      rw [hover, if_neg Bool.false_ne_true]
      exact (left_proceed_le started now rest _).trans_lt (by simp [left])

/-! Matches that come into the queue -/

theorem queue_scan (c : Collector) (call now : Nat) : (c.scan call now).queue = c.queue := by
  unfold Collector.scan
  split
  · rfl
  · dsimp only
    split <;> rfl

/-- A call that looks around brings one match into the queue at most, and then waits no longer. -/
theorem queue_resume (c : Collector) (call now : Nat) :
    (c.resume call now).queue.length ≤ c.queue.length + 1 ∧
      ((c.resume call now).isWaiting call = true → (c.resume call now).queue = c.queue) := by
  rcases resume_cases c call now with heq | ⟨w, -, rfl, ⟨heq, -⟩ | ⟨heq, -⟩⟩
  · rw [heq]
    exact ⟨Nat.le_succ _, fun _ => rfl⟩
  · rw [heq]
    exact ⟨Nat.le_succ _, fun _ => rfl⟩
  · rw [heq]
    refine ⟨by simp [Collector.enqueue], fun hwaits => ?_⟩
    rw [isWaiting_enqueue] at hwaits
    cases hwaits

/-- What an exporter brings into the queue when it goes on is less to do for it afterwards. -/
theorem load_proceed_le (started now : Nat) (rest : List Export) (c : Collector) :
    let next := proceed now rest c
    next.1.queue.length + left ⟨started, next.2.1, next.2.2⟩ ≤ c.queue.length + (2 * rest.length + 1) := by
  induction rest generalizing c with
  | nil => exact Nat.le_succ _
  | cons p rest ih =>
      have hcall :
          (((c.arrive p.batch p.timeout).scan c.calls now).resume c.calls now).queue.length ≤ c.queue.length + 1 := by
        refine (queue_resume _ c.calls now).1.trans ?_
        rw [queue_scan]
        exact Nat.le_refl _
      unfold proceed
      split
      · exact Nat.add_le_add_left (left_asleep (le_tick p.due) started rest).le _
      · dsimp only
        split
        · simp only [left, List.length_cons]
          omega
        · refine (ih _).trans ?_
          rw [List.length_cons]
          omega

theorem load_run_le :
    (e.run now c).1.queue.length + (e.run now c).2.left ≤ c.queue.length + e.left := by
  obtain ⟨started, phase, rest⟩ := e
  unfold run
  cases phase with
  | finished instant => exact Nat.le_refl _
  | asleep instant =>
      dsimp only
      split
      · exact Nat.le_refl _
      · refine (load_proceed_le started now rest c).trans (Nat.add_le_add_left ?_ _)
        simp only [left]
        split <;> omega
  | sending call =>
      obtain ⟨hone, hnone⟩ := queue_resume c call now
      dsimp only
      split
      · rename_i hwaits
        rw [hnone hwaits]
      · refine (load_proceed_le started now rest _).trans ?_
        simp only [left]
        omega

/-! Timers while places are set aside -/

/-- To set a place aside changes no deadline. -/
theorem map_deadline_grantFirst (line : List Waiting) (call : Nat) :
    ((grantFirst line).find? (·.delivery.call == call)).map (·.deadline) =
      (line.find? (·.delivery.call == call)).map (·.deadline) := by
  induction line with
  | nil => rfl
  | cons w line ih =>
      unfold grantFirst
      cases hcall : w.delivery.call == call with
      | true => split <;> simp [hcall]
      | false => split <;> simp [hcall, ih]

theorem timer?_of_take {after : Collector} {d : Delivery} (htake : c.take = some (d, after)) :
    e.timer? after = e.timer? c := by
  obtain ⟨rest, -, rfl⟩ := take_eq_some_iff.mp htake
  unfold timer?
  cases e.phase with
  | finished instant => rfl
  | asleep instant => rfl
  | sending call =>
      have hsame := congrArg (Option.map tick) (map_deadline_grantFirst c.waiting call)
      simpa only [Option.map_map, Function.comp_def] using hsame

theorem timer?_of_waiting {after : Collector} (h : after.waiting = c.waiting) : e.timer? after = e.timer? c := by
  unfold timer?
  rw [h]

end Exporter

namespace Timeline

/-- What is left for all exporters to do. -/
def left (t : Timeline) : Nat := (t.exporters.map Exporter.left).sum

/-- A turn of an exporter changes what is left by what it changes for that exporter. -/
theorem left_runOne {t : Timeline} {number : Nat} {e : Exporter} (he : t.exporters[number]? = some e) :
    (t.runOne number).left + e.left = t.left + (e.run t.now t.collector).2.left := by
  have hrun : (t.runOne number).exporters = t.exporters.set number (e.run t.now t.collector).2 := by
    rw [runOne, he]
  obtain ⟨hlt, rfl⟩ := List.getElem?_eq_some_iff.mp he
  rw [left, left, hrun]
  generalize (Exporter.run t.now t.exporters[number] t.collector).2 = after
  obtain ⟨front, back, hsplit, -, hset⟩ := @List.exists_of_set _ number after t.exporters hlt
  have hbefore := congrArg (fun es => (es.map Exporter.left).sum) hsplit
  simp only [hset, List.map_append, List.map_cons, List.sum_append, List.sum_cons] at hbefore ⊢
  omega

theorem left_runOne_le (t : Timeline) (number : Nat) : (t.runOne number).left ≤ t.left := by
  cases he : t.exporters[number]? with
  | none => rw [runOne, he]
  | some e =>
      have hsame := left_runOne he
      have hle : (e.run t.now t.collector).2.left ≤ e.left := e.left_run_le
      omega

/-- The matches in the queue, and what is left for the exporters that bring them there. -/
def load (t : Timeline) : Nat := t.collector.queue.length + t.left

theorem load_runOne_le (t : Timeline) (number : Nat) : (t.runOne number).load ≤ t.load := by
  cases he : t.exporters[number]? with
  | none => rw [runOne, he]
  | some e =>
      have hsame := left_runOne he
      have hqueue : (t.runOne number).collector = (e.run t.now t.collector).1 := by rw [runOne, he]
      have hle : (e.run t.now t.collector).1.queue.length + (e.run t.now t.collector).2.left ≤
          t.collector.queue.length + e.left := e.load_run_le
      rw [load, load, hqueue]
      omega

/-- What no exporter raises is not raised when several of them go on. -/
theorem foldl_runOne_le {f : Timeline → Nat} (hf : ∀ t number, f (t.runOne number) ≤ f t) (t : Timeline)
    (numbers : List Nat) : f (numbers.foldl runOne t) ≤ f t := by
  induction numbers generalizing t with
  | nil => exact Nat.le_refl _
  | cons number numbers ih => exact (ih _).trans (hf t number)

theorem left_settle_le (t : Timeline) : t.settle.left ≤ t.left := foldl_runOne_le left_runOne_le _ _

theorem load_settle_le (t : Timeline) : t.settle.load ≤ t.load := foldl_runOne_le load_runOne_le _ _

theorem woken_settle (t : Timeline) : t.settle.woken = [] := by
  suffices ∀ t : Timeline, ∀ numbers : List Nat, (numbers.foldl runOne t).woken = t.woken from this _ _
  intro t numbers
  induction numbers generalizing t with
  | nil => rfl
  | cons number numbers ih =>
      rw [List.foldl_cons, ih, runOne]
      split <;> rfl

theorem earliest_le {a instant : Nat} {b : Option Nat} (h : earliest (some a) b = some instant) :
    instant ≤ a := by
  cases b with
  | none =>
      obtain rfl : a = instant := by simpa [earliest] using h
      exact Nat.le_refl _
  | some b =>
      obtain rfl : min a b = instant := by simpa [earliest] using h
      exact Nat.min_le_left _ _

theorem earliest_eq_some_left (a : Nat) (b : Option Nat) : ∃ i, earliest (some a) b = some i ∧ i ≤ a := by
  cases b with
  | none => exact ⟨a, rfl, Nat.le_refl _⟩
  | some b => exact ⟨min a b, rfl, Nat.min_le_left _ _⟩

theorem earliest_eq_some {a b : Option Nat} {instant : Nat} (h : earliest a b = some instant) :
    a = some instant ∨ b = some instant := by
  cases a with
  | none => exact Or.inr h
  | some a =>
      cases b with
      | none => exact Or.inl h
      | some b =>
          obtain rfl : min a b = instant := by simpa [earliest] using h
          exact (min_choice a b).imp (fun heq => by rw [heq]) fun heq => by rw [heq]

/-- The next timer is that of an exporter. -/
theorem exists_timer?_eq {t : Timeline} {instant : Nat} (h : t.timer? = some instant) :
    ∃ e ∈ t.exporters, e.timer? t.collector = some instant := by
  have hfold (exporters : List Exporter) {best : Option Nat}
      (hbest : exporters.foldl (fun best e => earliest best (e.timer? t.collector)) best = some instant) :
      best = some instant ∨ ∃ e ∈ exporters, e.timer? t.collector = some instant := by
    induction exporters generalizing best with
    | nil => exact Or.inl hbest
    | cons e exporters ih =>
        rcases ih hbest with hearliest | ⟨later, hlater, htimer⟩
        · exact (earliest_eq_some hearliest).imp_right fun htimer => ⟨e, List.mem_cons_self, htimer⟩
        · exact Or.inr ⟨later, List.mem_cons_of_mem e hlater, htimer⟩
  exact (hfold t.exporters h).resolve_left nofun

theorem mem_numbersOf {t : Timeline} {which : Exporter → Bool} {number : Nat} :
    number ∈ t.numbersOf which ↔ ∃ e, t.exporters[number]? = some e ∧ which e = true := by
  simp only [numbersOf, List.mem_map, List.mem_filter, List.mem_zipIdx_iff_getElem?]
  constructor
  · rintro ⟨⟨e, _⟩, ⟨he, hwhich⟩, rfl⟩
    exact ⟨e, he, hwhich⟩
  · rintro ⟨e, he, hwhich⟩
    exact ⟨(e, number), ⟨he, hwhich⟩, rfl⟩

/-! What there is to do -/

/-- The exporter that goes on first does so since its timer has rung. -/
def isRung (t : Timeline) : Bool :=
  (t.woken.head?.bind (t.exporters[·]?)).any fun e => (e.timer? t.collector).any (· ≤ t.now)

/-- Nobody has to go on before the clock moves, or somebody has whose timer has not rung. -/
def unrest (t : Timeline) : Nat := if t.isRung then 0 else if t.woken = [] then 1 else 2

/-- What there is to do for everyone but the foreground. -/
def toDo (t : Timeline) : Nat := 2 * t.load + 2 * t.left + t.unrest

theorem isRung_of_woken_eq_nil {t : Timeline} (h : t.woken = []) : t.isRung = false := by simp [isRung, h]

theorem unrest_le_two (t : Timeline) : t.unrest ≤ 2 := by
  unfold unrest
  split
  · omega
  · split <;> omega

theorem unrest_pos {t : Timeline} (h : t.isRung = false) : 0 < t.unrest := by
  unfold unrest
  rw [h, if_neg Bool.false_ne_true]
  split <;> omega

/-- Those who are woken by their timers leave less to do. -/
theorem left_settle_lt {t : Timeline} (h : t.isRung = true) : t.settle.left < t.left := by
  obtain ⟨e, he, hrung⟩ := (Option.any_eq_true _ _).mp h
  obtain ⟨first, hfirst, he⟩ := Option.bind_eq_some_iff.mp he
  obtain ⟨alarm, htimer, hle⟩ := (Option.any_eq_true _ _).mp hrung
  obtain ⟨others, hwoken⟩ := List.head?_eq_some_iff.mp hfirst
  have hrun : (runOne { t with woken := [] } first).left + e.left = t.left + (e.run t.now t.collector).2.left :=
    left_runOne he
  have hless := Exporter.left_run_lt htimer (of_decide_eq_true hle)
  rw [settle, hwoken, List.foldl_cons]
  refine (foldl_runOne_le left_runOne_le _ others).trans_lt ?_
  omega

theorem toDo_settle_lt {t : Timeline} (h : t.woken ≠ []) : t.settle.toDo < t.toDo := by
  have hcalm : t.settle.unrest = 1 := by
    simp [unrest, t.woken_settle, isRung_of_woken_eq_nil t.woken_settle]
  have hleft := t.left_settle_le
  have hload := t.load_settle_le
  rw [toDo, toDo, hcalm]
  cases hrung : t.isRung with
  | true =>
      have hless := left_settle_lt hrung
      omega
  | false =>
      have hrest : t.unrest = 2 := by simp [unrest, hrung, h]
      omega

/-- Whoever is awake after the clock has moved was woken by a timer. -/
theorem isRung_advance {t : Timeline} (hcalm : t.woken = []) {instant : Nat}
    (h : (t.advance instant).woken ≠ []) : (t.advance instant).isRung = true := by
  obtain ⟨first, others, hwoken⟩ := List.exists_cons_of_ne_nil h
  have hmem : first ∈ t.numbersOf fun e => ((e.timer? t.collector).map (decide <| · ≤ instant)).getD false := by
    have hmem : first ∈ (t.advance instant).woken := hwoken ▸ List.mem_cons_self
    rwa [advance, hcalm, List.nil_append] at hmem
  obtain ⟨e, he, hdue⟩ := mem_numbersOf.mp hmem
  have hexporters : (t.advance instant).exporters[first]? = some e := he
  rw [isRung, hwoken, List.head?_cons, Option.bind_some, hexporters, Option.any_some]
  change (e.timer? t.collector).any (· ≤ max t.now instant) = true
  cases htimer : e.timer? t.collector with
  | none => simp [htimer] at hdue
  | some alarm =>
      have hle : alarm ≤ instant := by simpa [htimer] using hdue
      simpa using Or.inr hle

theorem toDo_advance_le {t : Timeline} (hcalm : t.woken = []) (instant : Nat) :
    (t.advance instant).toDo ≤ t.toDo := by
  have hrest : t.unrest = 1 := by simp [unrest, hcalm, isRung_of_woken_eq_nil hcalm]
  have hnext : (t.advance instant).unrest ≤ 1 := by
    by_cases hwoken : (t.advance instant).woken = []
    · simp [unrest, hwoken, isRung_of_woken_eq_nil hwoken]
    · simp [unrest, isRung_advance hcalm hwoken]
  rw [toDo, toDo, hrest]
  exact Nat.add_le_add_left hnext _

/-- The clock moves to the next timer only to wake somebody. -/
theorem toDo_advance_lt {t : Timeline} (hcalm : t.woken = []) {instant : Nat} (htimer : t.timer? = some instant) :
    (t.advance instant).toDo < t.toDo := by
  obtain ⟨e, he, hnext⟩ := exists_timer?_eq htimer
  obtain ⟨number, hnumber⟩ := List.getElem?_of_mem he
  have hmem : number ∈ t.numbersOf fun e => ((e.timer? t.collector).map (decide <| · ≤ instant)).getD false :=
    mem_numbersOf.mpr ⟨e, hnumber, by simp [hnext]⟩
  have hwoken : (t.advance instant).woken ≠ [] := by
    rw [advance, hcalm, List.nil_append]
    exact List.ne_nil_of_mem hmem
  have hrest : t.unrest = 1 := by simp [unrest, hcalm, isRung_of_woken_eq_nil hcalm]
  have hrung : (t.advance instant).unrest = 0 := by simp [unrest, isRung_advance hcalm hwoken]
  rw [toDo, toDo, hrest, hrung]
  exact Nat.lt_succ_self _

theorem isRung_moved {t : Timeline} {c : Collector} (htimers : ∀ e : Exporter, e.timer? c = e.timer? t.collector)
    (h : t.isRung = true) : (t.moved c).isRung = true := by
  obtain ⟨e, he, hrung⟩ := (Option.any_eq_true _ _).mp h
  obtain ⟨first, hfirst, he⟩ := Option.bind_eq_some_iff.mp he
  obtain ⟨others, hwoken⟩ := List.head?_eq_some_iff.mp hfirst
  have hexporters : (t.moved c).exporters[first]? = some e := he
  have hhead : (t.moved c).woken.head? = some first := by simp [moved, hwoken]
  rw [isRung, hhead, Option.bind_some, hexporters, Option.any_some]
  change (e.timer? c).any (· ≤ t.now) = true
  rw [htimers]
  exact hrung

/-- To take a match leaves less to do, even if it wakes somebody. -/
theorem toDo_moved_lt {t : Timeline} {c : Collector} {d : Delivery} (htake : t.collector.take = some (d, c)) :
    (t.moved c).toDo < t.toDo := by
  have hqueue : t.collector.queue.length = c.queue.length + 1 := by
    obtain ⟨rest, hqueue, rfl⟩ := take_eq_some_iff.mp htake
    simp [hqueue]
  have hrest : (t.moved c).unrest ≤ t.unrest + 1 := by
    cases hrung : t.isRung with
    | true =>
        have hstill := isRung_moved (fun e => e.timer?_of_take htake) hrung
        simp [unrest, hstill]
    | false =>
        have hpos := unrest_pos hrung
        exact (t.moved c).unrest_le_two.trans (Nat.succ_le_succ hpos)
  have hleft : (t.moved c).left = t.left := rfl
  have hload : (t.moved c).load + 1 = t.load := by
    change c.queue.length + t.left + 1 = t.collector.queue.length + t.left
    omega
  rw [toDo, toDo, hleft]
  omega

/-- What touches neither the queue nor the line leaves just as much to do. -/
theorem toDo_moved {t : Timeline} {c : Collector} (hqueue : c.queue = t.collector.queue)
    (hwaiting : c.waiting = t.collector.waiting) : (t.moved c).toDo = t.toDo := by
  have hgranted : granted c = granted t.collector := by rw [granted, granted, hwaiting]
  have hnobody : (granted c).filter (fun call => !(granted t.collector).contains call) = [] := by
    rw [hgranted, List.filter_eq_nil_iff]
    intro call hcall
    simpa using hcall
  have hwoken : (t.moved c).woken = t.woken := by
    change t.woken ++ t.sendersOf ((granted c).filter fun call => !(granted t.collector).contains call) = t.woken
    rw [hnobody]
    exact List.append_nil t.woken
  have hrung : (t.moved c).isRung = t.isRung := by
    rw [isRung, isRung, hwoken]
    have htimers (e : Exporter) : e.timer? c = e.timer? t.collector := e.timer?_of_waiting hwaiting
    change (t.woken.head?.bind (t.exporters[·]?)).any (fun e => (e.timer? c).any (· ≤ t.now)) = _
    simp only [htimers]
  have hload : (t.moved c).load = t.load := by
    change c.queue.length + t.left = _
    rw [hqueue]
    rfl
  rw [toDo, toDo, hload, unrest, unrest, hrung, hwoken]
  rfl

/-- There is less to do for the others than the turns that a timeline is given. -/
theorem toDo_le_work (t : Timeline) : t.toDo ≤ 8 * t.work + 2 := by
  have hleft : t.left ≤ 2 * (t.exporters.map fun e => e.rest.length + 1).sum := by
    rw [← List.sum_map_mul_left]
    exact List.sum_le_sum fun e _ => e.left_le
  have hwork : t.work = (t.exporters.map fun e => e.rest.length + 1).sum + t.collector.queue.length := rfl
  have hrest := t.unrest_le_two
  rw [toDo, load]
  omega

/-- One for an instant that is still to come. -/
def toCome (instant now : Nat) : Nat := if now < instant then 1 else 0

theorem toCome_le_one (instant now : Nat) : toCome instant now ≤ 1 := by
  unfold toCome
  split <;> omega

theorem toCome_mono {now later : Nat} (hle : now ≤ later) (instant : Nat) :
    toCome instant later ≤ toCome instant now := by
  unfold toCome
  split
  · rw [if_pos (by omega)]
  · exact Nat.zero_le _

theorem toCome_lt {instant now later : Nat} (hearly : now < instant) (hreached : instant ≤ later) :
    toCome instant later < toCome instant now := by
  rw [toCome, toCome, if_pos hearly, if_neg (Nat.not_lt_of_le hreached)]
  exact Nat.zero_lt_one

/-! Turns -/

/-- What exporters and the clock leave to hold, and every turn of the foreground, holds until that is done. -/
theorem turns_induction {σ α : Type} {turn : Timeline → σ → Timeline × Turn σ α} {alarm : σ → Option Nat}
    {P : Timeline → Prop} {Q : Timeline → α → Prop} (hsettle : ∀ t, P t → P t.settle)
    (hadvance : ∀ t instant, P t → P (t.advance instant))
    (hagain : ∀ t s t' s', P t → turn t s = (t', .again s') → P t')
    (hblocked : ∀ t s t' s', P t → turn t s = (t', .blocked s') → P t')
    (hdone : ∀ t s t' a, P t → turn t s = (t', .done a) → Q t' a) {fuel : Nat} {t t' : Timeline} {s : σ}
    {a : α} (h : P t) (hturns : t.turns turn alarm fuel s = (t', some a)) : Q t' a := by
  induction fuel generalizing t s with
  | zero => cases hturns
  | succ fuel ih =>
      rw [turns] at hturns
      split at hturns
      · rename_i t₁ a₁ hturn
        obtain ⟨rfl, hsome⟩ := Prod.mk.inj hturns
        obtain rfl := Option.some.inj hsome
        exact hdone t s _ _ h hturn
      · rename_i t₁ s₁ hturn
        exact ih (hagain t s t₁ s₁ h hturn) hturns
      · rename_i t₁ s₁ hturn
        have h₁ := hblocked t s t₁ s₁ h hturn
        split at hturns
        · exact ih (hsettle t₁ h₁) hturns
        · split at hturns
          · cases hturns
          · exact ih (hadvance t₁ _ h₁) hturns

/-- A foreground that goes on lowers a number, and so does whatever happens while it waits: then it is done before
as many turns are taken. -/
theorem exists_turns_eq_some {σ α : Type} {turn : Timeline → σ → Timeline × Turn σ α} {alarm : σ → Option Nat}
    (rank : Timeline → σ → Nat)
    (hagain : ∀ t s t' s', turn t s = (t', .again s') → rank t' s' < rank t s)
    (hsettle : ∀ t s t' s', turn t s = (t', .blocked s') → t'.woken ≠ [] → rank t'.settle s' < rank t s)
    (hadvance : ∀ t s t' s', turn t s = (t', .blocked s') → t'.woken = [] →
      ∃ instant, earliest (alarm s') t'.timer? = some instant ∧ rank (t'.advance instant) s' < rank t s)
    {fuel : Nat} {t : Timeline} {s : σ} (h : rank t s < fuel) :
    ∃ t' a, t.turns turn alarm fuel s = (t', some a) := by
  induction fuel generalizing t s with
  | zero => exact absurd h (Nat.not_lt_zero _)
  | succ fuel ih =>
      rw [turns]
      split
      · rename_i t' a hturn
        exact ⟨t', a, rfl⟩
      · rename_i t' s' hturn
        exact ih ((hagain t s t' s' hturn).trans_le (Nat.le_of_lt_succ h))
      · rename_i t' s' hturn
        split
        · rename_i hwoken
          exact ih ((hsettle t s t' s' hturn hwoken).trans_le (Nat.le_of_lt_succ h))
        · rename_i hwoken
          obtain ⟨instant, hinstant, hlt⟩ := hadvance t s t' s' hturn (not_not.mp hwoken)
          rw [hinstant]
          exact ih (hlt.trans_le (Nat.le_of_lt_succ h))

end Timeline

end ContentProbe
