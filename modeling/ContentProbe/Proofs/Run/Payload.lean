import ContentProbe.Proofs.Time.Tick
import ContentProbe.Run.Action
import Mathlib.Algebra.Order.Ring.Nat
import Mathlib.Data.List.Induction

/-!
How a payload is read. Reading takes in chunks until the byte limit is reached, a fault comes, the payload
ends or the time is up, whichever is first; that settles which chunks it takes in, and they settle what was
read: their length up to the byte limit, and the instant of the first of them that has bytes. What came before
a fault or the time limit is kept, and what comes after the byte limit does not matter.
-/

namespace ContentProbe

open ContentProbe.Time

/-! The time that an action takes -/

/-- The timer of a time limit rings at a whole millisecond, less than one after the limit is over. -/
theorem add_after_timeLimit (begin limit : Nat) :
    begin + (timeLimit begin limit).after = tick (begin + limit) :=
  Nat.add_sub_cancel' ((Nat.le_add_right begin limit).trans (le_tick _))

theorem le_after_timeLimit (begin limit : Nat) : limit ≤ (timeLimit begin limit).after := by
  have hring := add_after_timeLimit begin limit
  have hle := le_tick (begin + limit)
  omega

theorem after_timeLimit_lt (begin limit : Nat) : (timeLimit begin limit).after < limit + millisecond := by
  have hring := add_after_timeLimit begin limit
  have hlt := tick_lt (begin + limit)
  omega

theorem Timed.after_within {α : Type} (t : Timed (Except ActionFault α)) (limit : Timed ActionFault) :
    (t.within limit).after = min t.after limit.after := by
  unfold Timed.within
  split
  · rename_i hintime
    exact (Nat.min_eq_left hintime).symm
  · rename_i hlate
    exact (Nat.min_eq_right (Nat.le_of_not_le hlate)).symm

theorem Timed.after_within_le {α : Type} (t : Timed (Except ActionFault α)) (limit : Timed ActionFault) :
    (t.within limit).after ≤ limit.after := by
  rw [t.after_within]
  exact Nat.min_le_right _ _

theorem readChunks_duration_le (maxBytes : Nat) {limit : Timed ActionFault} (chunks : List (Timed Chunk))
    {now : Nat} (hnow : now ≤ limit.after) (r : Reading) :
    (readChunks maxBytes limit now r chunks).transfer.duration ≤ limit.after := by
  induction chunks generalizing now r with
  | nil => exact hnow
  | cons c rest ih =>
      unfold readChunks
      simp only
      split
      · exact Nat.le_refl limit.after
      · rename_i hlate
        have hnow : now + c.after ≤ limit.after := Nat.le_of_not_lt hlate
        split
        · exact hnow
        · exact ih hnow r
        · split
          · exact hnow
          · exact ih hnow _

/-- A transfer ends at its time limit if not before. -/
theorem Payload.duration_read_le (maxBytes : Nat) (limit : Timed ActionFault) (p : Payload) :
    (p.read maxBytes limit).transfer.duration ≤ limit.after := by
  have hopened : (p.opens.within limit).after ≤ limit.after := p.opens.after_within_le limit
  unfold Payload.read
  simp only
  split
  · exact hopened
  · exact readChunks_duration_le maxBytes _ hopened _

/-! Chunks and their instants -/

def Chunk.size : Chunk → Nat
  | .bytes size => size
  | .fault _ => 0

/-- The bytes of chunks together. -/
def totalSize (chunks : List (Timed Chunk)) : Nat := (chunks.map (·.value.size)).sum

/-- Chunks with the instants at which they come, of chunks with the time since the one before. -/
def arrivals : Nat → List (Timed Chunk) → List (Timed Chunk)
  | _, [] => []
  | now, c :: rest => ⟨now + c.after, c.value⟩ :: arrivals (now + c.after) rest

/-- Chunks that come in time, and after none of which reading ends: no failure is among them, and those that
have bytes leave room for more. -/
inductive ReadsOn (maxBytes limit : Nat) : List (Timed Chunk) → Prop where
  | nil : ReadsOn maxBytes limit []
  | snoc {before : List (Timed Chunk)} {c : Timed Chunk} {size : Nat} (h : ReadsOn maxBytes limit before)
      (intime : c.after ≤ limit) (bytes : c.value = .bytes size)
      (room : size = 0 ∨ totalSize before + size < maxBytes) : ReadsOn maxBytes limit (before ++ [c])

/-- What ends the reading of a payload. -/
inductive ReadEnd where
  | byteLimit
  | fault (f : ActionFault)
  | exhausted
  | timeLimit
  deriving DecidableEq, Repr

/-- The failure that an ending is, if it is one. -/
def ReadEnd.fault? (limit : Timed ActionFault) : ReadEnd → Option ActionFault
  | .byteLimit | .exhausted => none
  | .fault f => some f
  | .timeLimit => some limit.value

/-- Reading ends after chunks, of which the last one may be what ends it, and before others. -/
inductive Stops (maxBytes limit : Nat) : List (Timed Chunk) → List (Timed Chunk) → ReadEnd → Prop where
  | byteLimit {before rest : List (Timed Chunk)} {c : Timed Chunk} {size : Nat}
      (h : ReadsOn maxBytes limit before) (intime : c.after ≤ limit) (bytes : c.value = .bytes size)
      (nonempty : 0 < size) (full : maxBytes ≤ totalSize before + size) :
      Stops maxBytes limit (before ++ [c]) rest .byteLimit
  | fault {before rest : List (Timed Chunk)} {c : Timed Chunk} {f : ActionFault}
      (h : ReadsOn maxBytes limit before) (intime : c.after ≤ limit) (fault : c.value = .fault f) :
      Stops maxBytes limit (before ++ [c]) rest (.fault f)
  | exhausted {consumed : List (Timed Chunk)} (h : ReadsOn maxBytes limit consumed) :
      Stops maxBytes limit consumed [] .exhausted
  | timeLimit {consumed rest : List (Timed Chunk)} {c : Timed Chunk} (h : ReadsOn maxBytes limit consumed)
      (late : limit < c.after) : Stops maxBytes limit consumed (c :: rest) .timeLimit

variable {maxBytes limit : Nat} {consumed rest : List (Timed Chunk)} {e : ReadEnd}

theorem ReadsOn.intime (h : ReadsOn maxBytes limit consumed) : ∀ c ∈ consumed, c.after ≤ limit := by
  induction h with
  | nil => simp
  | snoc _ hintime _ _ ih => simpa [or_imp, forall_and] using ⟨ih, hintime⟩

theorem Stops.intime (h : Stops maxBytes limit consumed rest e) : ∀ c ∈ consumed, c.after ≤ limit := by
  cases h with
  | byteLimit h hintime => simpa [or_imp, forall_and] using ⟨h.intime, hintime⟩
  | fault h hintime => simpa [or_imp, forall_and] using ⟨h.intime, hintime⟩
  | exhausted h => exact h.intime
  | timeLimit h => exact h.intime

/-- The chunks that reading takes in after those that it has taken in, and what ends it. -/
def takeIn (maxBytes limit : Nat) (taken : List (Timed Chunk)) :
    List (Timed Chunk) → List (Timed Chunk) × ReadEnd
  | [] => (taken, .exhausted)
  | c :: rest =>
      if limit < c.after then (taken, .timeLimit)
      else match c.value with
        | .fault f => (taken ++ [c], .fault f)
        | .bytes size =>
            if size = 0 ∨ totalSize taken + size < maxBytes then takeIn maxBytes limit (taken ++ [c]) rest
            else (taken ++ [c], .byteLimit)

theorem takeIn_readsOn (h : ReadsOn maxBytes limit consumed) (rest : List (Timed Chunk)) :
    takeIn maxBytes limit [] (consumed ++ rest) = takeIn maxBytes limit consumed rest := by
  induction h generalizing rest with
  | nil => rfl
  | snoc h hintime hbytes hroom ih =>
      rw [← List.append_cons, ih, takeIn, if_neg (Nat.not_lt.mpr hintime), hbytes]
      exact if_pos hroom

/-- There is one place where reading ends, and one ending there. -/
theorem takeIn_of_stops (h : Stops maxBytes limit consumed rest e) :
    takeIn maxBytes limit [] (consumed ++ rest) = (consumed, e) := by
  cases h with
  | byteLimit h hintime hbytes hpos hfull =>
      rw [← List.append_cons, takeIn_readsOn h, takeIn, if_neg (Nat.not_lt.mpr hintime), hbytes]
      exact if_neg (by omega)
  | fault h hintime hfault =>
      rw [← List.append_cons, takeIn_readsOn h, takeIn, if_neg (Nat.not_lt.mpr hintime), hfault]
  | exhausted h =>
      rw [takeIn_readsOn h]
      rfl
  | timeLimit h hlate =>
      rw [takeIn_readsOn h, takeIn, if_pos hlate]

/-! What is read -/

namespace Payload

/-- The chunks of a payload with the instants at which they come; none of one that is not opened. -/
def chunks (p : Payload) : List (Timed Chunk) :=
  match p.opens.value with
  | .ok chunks => arrivals p.opens.after chunks
  | .error _ => []

/-- The chunks that reading takes in of a payload, and what ends it. -/
inductive Consumes (maxBytes limit : Nat) (p : Payload) : List (Timed Chunk) → ReadEnd → Prop where
  | unopened {f : ActionFault} (intime : p.opens.after ≤ limit) (failed : p.opens.value = .error f) :
      Consumes maxBytes limit p [] (.fault f)
  | openedLate (late : limit < p.opens.after) : Consumes maxBytes limit p [] .timeLimit
  | opened {pieces consumed rest : List (Timed Chunk)} {e : ReadEnd} (intime : p.opens.after ≤ limit)
      (succeeded : p.opens.value = .ok pieces) (split : p.chunks = consumed ++ rest)
      (stops : Stops maxBytes limit consumed rest e) : Consumes maxBytes limit p consumed e

/-- What reading takes in and what ends it, by what the payload is. -/
def settled (maxBytes limit : Nat) (p : Payload) : List (Timed Chunk) × ReadEnd :=
  if limit < p.opens.after then ([], .timeLimit)
  else match p.opens.value with
    | .error f => ([], .fault f)
    | .ok _ => takeIn maxBytes limit [] p.chunks

variable {p : Payload}

/-- A payload settles what reading takes in of it, and what ends the reading. -/
theorem Consumes.settled (h : p.Consumes maxBytes limit consumed e) :
    p.settled maxBytes limit = (consumed, e) := by
  unfold Payload.settled
  cases h with
  | unopened hintime hfailed => rw [if_neg (Nat.not_lt.mpr hintime), hfailed]
  | openedLate hlate => rw [if_pos hlate]
  | opened hintime hopened hsplit hstops =>
      rw [if_neg (Nat.not_lt.mpr hintime), hopened, hsplit]
      exact takeIn_of_stops hstops

theorem Consumes.unique {consumed' : List (Timed Chunk)} {e' : ReadEnd}
    (h : p.Consumes maxBytes limit consumed e) (h' : p.Consumes maxBytes limit consumed' e') :
    consumed' = consumed ∧ e' = e :=
  Prod.mk.inj (h'.settled.symm.trans h.settled)

theorem Consumes.intime (h : p.Consumes maxBytes limit consumed e) : ∀ c ∈ consumed, c.after ≤ limit := by
  cases h with
  | unopened => simp
  | openedLate => simp
  | opened _ _ _ hstops => exact hstops.intime

theorem fault?_eq_none_iff (limit : Timed ActionFault) (e : ReadEnd) :
    e.fault? limit = none ↔ e = .byteLimit ∨ e = .exhausted := by
  cases e <;> simp [ReadEnd.fault?]

end Payload

end ContentProbe
