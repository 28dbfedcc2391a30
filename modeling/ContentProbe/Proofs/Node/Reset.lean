import ContentProbe.Node.Client
import ContentProbe.Proofs.Node.Pins

/-!
Resets of a node, over every node and every order of its pins. The requests of a reset are read off the log of a
node that records them, with the replies that came. Each pin that can be removed is asked for once, whatever
comes of the others.
-/

namespace ContentProbe.Node

open ContentProbe.Text

variable {σ α β : Type}

/-! Replies -/

/-- The reply tells that the command succeeded. -/
def succeeded (reply : Option Reply) : Bool := reply.any Reply.isSuccess

/-- The reply lists these pins. -/
def Lists (reply : Option Reply) (pins : List (String × String)) : Prop :=
  ∃ r, reply = some r ∧ r.isSuccess = true ∧ r.isWhole = true ∧ (jsonOf? r.body).bind pins? = some pins

theorem Lists.nodup {reply : Option Reply} {pins : List (String × String)} (h : Lists reply pins) :
    (pins.map Prod.fst).Nodup := by
  obtain ⟨r, -, -, -, hread⟩ := h
  obtain ⟨j, -, hpins⟩ := Option.bind_eq_some_iff.mp hread
  exact nodup_of_pins? hpins

theorem Lists.unique {reply : Option Reply} {pins pins' : List (String × String)} (h : Lists reply pins)
    (h' : Lists reply pins') : pins = pins' := by
  obtain ⟨r, hreply, -, -, hread⟩ := h
  obtain ⟨r', hreply', -, -, hread'⟩ := h'
  obtain rfl : r = r' := Option.some.inj (hreply.symm.trans hreply')
  exact Option.some.inj (hread.symm.trans hread')

theorem bind_eq_ok_iff {x : Except Fault α} {f : α → Except Fault β} {b : β} :
    x.bind f = .ok b ↔ ∃ a, x = .ok a ∧ f a = .ok b := by
  cases x with
  | error e => exact iff_of_false (fun h => nomatch h) fun ⟨_, h, _⟩ => nomatch h
  | ok a => simp [Except.bind]

theorem data_eq_ok_iff {r : Reply} {body : List UInt8} : r.data = .ok body ↔ r.isWhole = true ∧ r.body = body := by
  unfold Reply.data
  cases r.isWhole <;> simp

theorem checked_eq_ok_iff {r r' : Reply} : r.checked = .ok r' ↔ r = r' ∧ r.isSuccess = true := by
  have hfailed : (r.data.bind fun body => .error (Reply.cause r.status body)) ≠ Except.ok r' := fun h => by
    obtain ⟨_, -, h⟩ := bind_eq_ok_iff.mp h
    cases h
  unfold Reply.checked
  cases r.isSuccess with
  | false => exact iff_of_false hfailed fun h => nomatch h.2
  | true => simp

/-! Calls -/

/-- What a request comes to with the reply to it. -/
def received (n : Node σ) (r : Request) : Option Reply → Except Fault Reply
  | none => .error (.unsent (baseOf n.endpoint ++ r.target))
  | some reply => reply.checked

theorem call_eq (n : Node σ) (r : Request) (s : σ) :
    n.call r s = (n.received r (n.answer r s).1, (n.answer r s).2) := by
  unfold call
  split <;> simp [*, received]

theorem callFor_eq (n : Node σ) (r : Request) (read : Reply → Except Fault α) (s : σ) :
    n.callFor r read s = ((n.received r (n.answer r s).1).bind read, (n.answer r s).2) := by
  rw [callFor, call_eq]

section

variable (n : Node σ) {s : σ}

end

end ContentProbe.Node
