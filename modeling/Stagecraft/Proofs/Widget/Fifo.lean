import Stagecraft.Proofs.Widget.Evolution
import Stagecraft.Proofs.Widget.Session

/-!
This module contains the order in which queues serve their items: what was put in first leaves
first, whatever updates are rejected in between.
-/

namespace Stagecraft

namespace Queue

variable {q after : Queue} {u : Update}

theorem turns_iff : u.Turns q after ↔ q.Serves u.method u.event after := exists_respond_iff

/--
The items that were put into a queue, in order.
-/
def arrivals (accepted : List Update) : List Value :=
  (accepted.filter (·.method = "onEnqueue")).map (·.event.element)

def departures (accepted : List Update) : Nat := accepted.countP (·.method = "onDequeue")

/--
What was put into a queue is what has left it and what it holds, in this order.
-/
def IsFifo (q : Queue) (accepted : List Update) : Prop :=
  ∃ left, arrivals accepted = left ++ q.items ∧ left.length = departures accepted

theorem Serves.isFifo (h : q.Serves u.method u.event after) {accepted : List Update}
    (fifo : q.IsFifo accepted) : after.IsFifo (accepted ++ [u]) := by
  obtain ⟨left, arrived, departed⟩ := fifo
  unfold IsFifo arrivals departures at *
  cases h with
  | enqueue method room =>
    refine ⟨left, ?_, ?_⟩
    · simp [method, arrived]
    · simp [method, departed]
  | @dequeue item items method held =>
    refine ⟨left ++ [item], ?_, ?_⟩
    · simp [method, arrived, held]
    · simp [method, departed]

theorem Serves.capacity_eq (h : q.Serves u.method u.event after) : after.capacity = q.capacity := by
  cases h with
  | _ => rfl

theorem IsFifo.items_eq {accepted : List Update} (h : q.IsFifo accepted) :
    q.items = (arrivals accepted).drop (departures accepted) ∧
      departures accepted ≤ (arrivals accepted).length := by
  obtain ⟨left, arrived, departed⟩ := h
  rw [arrived, ← departed]
  simp

/--
A queue that starts empty holds what was put into it, in order, less what has left it. It accepts an
item unless it is full, and gives one up unless it is empty; any other update it rejects, and what
it rejects changes nothing.
-/
theorem items_eq_drop_enqueued {σ : Type} [Stage σ] (name : String) (capacity : Option UInt64)
    (updates : List Update) (stage : σ) :
    let start : Session Queue σ := { widget := { name, capacity }, stage }
    let s := start.updateAll updates
    let enqueued := (s.accepted.filter (·.method = "onEnqueue")).map fun u =>
      (u.event.payload.get? "node").getD (.object u.event.payload)
    let dequeues := s.accepted.countP (·.method = "onDequeue")
    s.widget.items = enqueued.drop dequeues ∧ dequeues ≤ enqueued.length ∧
    (∀ size, capacity = some size → s.widget.items.length ≤ size.toNat) ∧
    ∀ u, ((s.react u).result = .ok () ↔
        (u.method = "onEnqueue" ∧ ∀ size, capacity = some size →
          s.widget.items.length < size.toNat) ∨
        (u.method = "onDequeue" ∧ s.widget.items ≠ [])) ∧
      ((s.react u).result ≠ .ok () →
        (s.react u).widget = s.widget ∧ (s.react u).stage = s.stage) := by
  intro start s enqueued dequeues
  let Kept (q : Queue) (accepted : List Update) : Prop :=
    q.IsFifo accepted ∧ q.IsSound ∧ q.capacity = capacity
  have kept : Kept s.widget s.accepted := by
    apply Session.updateAll_induction (motive := Kept)
    · refine ⟨⟨[], rfl, rfl⟩, ?_, rfl⟩
      simp [IsSound, start]
    · rintro widget accepted u after turns ⟨fifo, sound, bound⟩
      have serves := turns_iff.mp turns
      exact ⟨serves.isFifo fifo, serves.isSound sound, serves.capacity_eq.trans bound⟩
  obtain ⟨fifo, sound, bound⟩ := kept
  refine ⟨fifo.items_eq.1, fifo.items_eq.2, ?_, ?_⟩
  · rw [← bound]
    exact sound
  · intro u
    constructor
    · simp only [Session.result_react_eq_ok_iff, turns_iff, exists_serves_iff, bound]
    · apply Session.react_of_result_ne_ok

end Queue

end Stagecraft
