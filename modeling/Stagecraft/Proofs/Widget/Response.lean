import Stagecraft.Proofs.Widget.Decision
import Stagecraft.Proofs.Widget.Making

/-!
This module contains which updates grids, queues and stacks accept, and what each of them makes of
the widget: `exists_respond_iff`, for each of the three.
-/

namespace Stagecraft

theorem Value.toIndex?_eq_some_iff_ofIndex {value : Value} {n : UInt64} :
    value.toIndex? = some n ↔ value = .ofIndex n := by
  rw [toIndex?_eq_some_iff]
  constructor
  · rintro ⟨m, exact, rfl, nonneg, rfl⟩
    have bound : m.toNat < 2 ^ 64 := by
      unfold IsExact at exact
      omega
    unfold ofIndex Number.ofIndex
    congr 2
    rw [UInt64.toNat_ofNat_of_lt' bound]
    omega
  · rintro rfl
    refine ⟨n.toNat, _, rfl, by omega, ?_⟩
    simp

variable {method : String} {event : Event}

namespace Grid

/--
The methods that mark a cell, and what they mark it as.
-/
def markings : List (String × CellState) :=
  [("onEnqueue", .frontier), ("onDequeue", .current), ("onVisit", .visited), ("onGoal", .goal)]

/--
An update that asks to mark a cell: its node is a pair of whole numbers that are not negative.
-/
structure Marks (method : String) (event : Event) (cell : Cell) (state : CellState) : Prop where
  marking : (method, state) ∈ markings
  node : event.payload.get? "node" = some (.array [.ofIndex cell.row, .ofIndex cell.col])

inductive Shows (g : Grid) (method : String) (event : Event) : Grid → Prop where
  | mark {cell : Cell} {state : CellState} (h : Marks method event cell state)
    (row : cell.row < g.rows) (col : cell.col < g.cols) : Shows g method event (g.put cell state)
  | reset (h : method = "onReset") : Shows g method event { g with cells := [] }

variable {g after : Grid} {cell other : Cell} {state later : CellState}

theorem exists_marking?_iff :
    (∃ effect, marking? method = some (state, effect)) ↔ (method, state) ∈ markings := by
  unfold marking? markings
  split
  · simp [eq_comm]
  · simp [eq_comm]
  · simp [eq_comm]
  · simp [eq_comm]
  · simp_all

theorem coordinates?_eq_some_iff :
    coordinates? event = some cell ↔
      event.payload.get? "node" = some (.array [.ofIndex cell.row, .ofIndex cell.col]) := by
  unfold coordinates?
  constructor
  · intro h
    split at h
    next row col node =>
      split at h
      next m n row col =>
        cases h
        rw [node, Value.toIndex?_eq_some_iff_ofIndex.mp row,
          Value.toIndex?_eq_some_iff_ofIndex.mp col]
      · cases h
    · cases h
  · intro h
    have row := Value.toIndex?_eq_some_iff_ofIndex.mpr (Eq.refl (Value.ofIndex cell.row))
    have col := Value.toIndex?_eq_some_iff_ofIndex.mpr (Eq.refl (Value.ofIndex cell.col))
    simp [h, row, col]

theorem node_eq_ok_iff :
    g.node event = .ok cell ↔
      coordinates? event = some cell ∧ cell.row < g.rows ∧ cell.col < g.cols := by
  unfold node
  cases coordinates? event with
  | none => simp
  | some found =>
    dsimp only
    split
    next inside =>
      simp only [Except.ok.injEq, Option.some.injEq]
      constructor
      · rintro rfl
        exact ⟨rfl, inside⟩
      · exact And.left
    next outside =>
      simp only [reduceCtorEq, Option.some.injEq, false_iff]
      rintro ⟨rfl, inside⟩
      exact outside inside

theorem exists_respond_iff :
    (∃ animation, g.respond method event = .ok (after, animation)) ↔
      g.Shows method event after := by
  constructor
  · rintro ⟨animation, h⟩
    unfold respond at h
    split at h
    next state effect marking =>
      obtain ⟨cell, found, h⟩ := exists_of_bind_eq_ok h
      cases h
      obtain ⟨node, row, col⟩ := node_eq_ok_iff.mp found
      apply Shows.mark _ row col
      constructor
      · exact exists_marking?_iff.mp ⟨effect, marking⟩
      · exact coordinates?_eq_some_iff.mp node
    · split at h
      next reset =>
        cases h
        apply Shows.reset reset
      · cases h
  · intro h
    unfold respond
    cases h with
    | @mark cell state marks row col =>
      obtain ⟨effect, marking⟩ := exists_marking?_iff.mpr marks.marking
      have node : g.node event = .ok cell :=
        node_eq_ok_iff.mpr ⟨coordinates?_eq_some_iff.mpr marks.node, row, col⟩
      rw [marking]
      dsimp only
      rw [node]
      exact ⟨_, rfl⟩
    | reset reset =>
      rw [reset]
      exact ⟨_, rfl⟩

theorem exists_shows_iff :
    (∃ after, g.Shows method event after) ↔
      method = "onReset" ∨
      ∃ cell state, Marks method event cell state ∧ cell.row < g.rows ∧ cell.col < g.cols := by
  constructor
  · rintro ⟨after, h⟩
    cases h with
    | mark marks row col => exact .inr ⟨_, _, marks, row, col⟩
    | reset reset => exact .inl reset
  · rintro (reset | ⟨cell, state, marks, row, col⟩)
    · exact ⟨_, .reset reset⟩
    · exact ⟨_, .mark marks row col⟩

theorem Marks.method_ne (h : Marks method event cell state) : method ≠ "onReset" := by
  rintro rfl
  have marking := h.marking
  simp [markings] at marking

theorem Marks.cell_eq (h : Marks method event cell state) (h' : Marks method event other later) :
    cell = other := by
  have first := coordinates?_eq_some_iff.mpr h.node
  have second := coordinates?_eq_some_iff.mpr h'.node
  rw [first] at second
  exact Option.some.inj second

theorem Marks.state_eq (h : Marks method event cell state) (h' : Marks method event other later) :
    state = later := by
  obtain ⟨_, first⟩ := exists_marking?_iff.mpr h.marking
  obtain ⟨_, second⟩ := exists_marking?_iff.mpr h'.marking
  rw [first] at second
  cases second
  rfl

end Grid

namespace Queue

inductive Serves (q : Queue) (method : String) (event : Event) : Queue → Prop where
  | enqueue (h : method = "onEnqueue") (room : q.isFull = false) :
    Serves q method event { q with items := q.items ++ [event.element] }
  | dequeue {item : Value} {items : List Value} (h : method = "onDequeue")
    (held : q.items = item :: items) : Serves q method event { q with items }

variable {q after : Queue}

theorem exists_respond_iff :
    (∃ animation, q.respond method event = .ok (after, animation)) ↔
      q.Serves method event after := by
  constructor
  · rintro ⟨animation, h⟩
    unfold respond at h
    split at h
    next =>
      split at h
      · cases h
      next room =>
        cases h
        apply Serves.enqueue rfl
        simpa using room
    next =>
      split at h
      · cases h
      next held =>
        cases h
        apply Serves.dequeue rfl held
    · cases h
  · intro h
    cases h with
    | enqueue method room => simp [respond, method, room]
    | dequeue method held => simp [respond, method, held]

theorem isFull_eq_false_iff :
    q.isFull = false ↔ ∀ size, q.capacity = some size → q.items.length < size.toNat := by
  unfold isFull
  cases q.capacity with
  | none => simp
  | some size => simp

theorem exists_serves_iff :
    (∃ after, q.Serves method event after) ↔
      (method = "onEnqueue" ∧ ∀ size, q.capacity = some size → q.items.length < size.toNat) ∨
      (method = "onDequeue" ∧ q.items ≠ []) := by
  rw [← isFull_eq_false_iff]
  constructor
  · rintro ⟨after, h⟩
    cases h with
    | enqueue method room => simp [method, room]
    | dequeue method held => simp [method, held]
  · rintro (⟨method, room⟩ | ⟨method, held⟩)
    · exact ⟨_, .enqueue method room⟩
    · obtain ⟨item, items, held⟩ := List.exists_cons_of_ne_nil held
      exact ⟨_, .dequeue method held⟩

end Queue

namespace Stack

inductive Piles (s : Stack) (method : String) (event : Event) : Stack → Prop where
  | push (h : method = "onPush") :
    Piles s method event { s with items := event.element :: s.items }
  | pop {item : Value} {items : List Value} (h : method = "onPop")
    (held : s.items = item :: items) : Piles s method event { s with items }

variable {s after : Stack}

theorem exists_respond_iff :
    (∃ animation, s.respond method event = .ok (after, animation)) ↔
      s.Piles method event after := by
  constructor
  · rintro ⟨animation, h⟩
    unfold respond at h
    split at h
    next =>
      cases h
      apply Piles.push rfl
    next =>
      split at h
      · cases h
      next held =>
        cases h
        apply Piles.pop rfl held
    · cases h
  · intro h
    cases h with
    | push method => simp [respond, method]
    | pop method held => simp [respond, method, held]

end Stack

end Stagecraft
