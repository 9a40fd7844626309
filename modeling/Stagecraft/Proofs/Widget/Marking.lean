import Stagecraft.Proofs.Widget.Session

/-!
This module contains the marks on grids: a cell shows what it was marked as last, since the grid was
last reset.
-/

namespace Stagecraft

namespace Grid

variable {g after : Grid} {u : Update}

theorem turns_iff : u.Turns g after ↔ g.Shows u.method u.event after := exists_respond_iff

theorem lookup_filter_ne {cells : List (Cell × CellState)} {marked other : Cell}
    (h : marked ≠ other) : (cells.filter (·.1 ≠ marked)).lookup other = cells.lookup other := by
  induction cells with
  | nil => rfl
  | cons first rest ih =>
    by_cases same : first.1 = marked
    · rw [List.filter_cons_of_neg, ih, List.lookup_cons, same, beq_false_of_ne h.symm]
      simp [same]
    · rw [List.filter_cons_of_pos, List.lookup_cons, List.lookup_cons, ih]
      simp [same]

theorem cell_put (g : Grid) (marked : Cell) (state : CellState) (row col : UInt64) :
    (g.put marked state).cell row col =
      if marked = ⟨row, col⟩ then some state else g.cell row col := by
  unfold Grid.cell put
  rw [List.lookup_cons]
  split
  next same =>
    rw [if_pos (eq_of_beq same).symm]
  next other =>
    have other : marked ≠ ⟨row, col⟩ := (ne_of_beq_false other).symm
    rw [lookup_filter_ne other, if_neg other]

/--
The last of some updates that marks a cell marks it as `state`, and none after it is a reset.
-/
def LastMarks (updates : List Update) (cell : Cell) (state : CellState) : Prop :=
  ∃ earlier u later, updates = earlier ++ u :: later ∧ Marks u.method u.event cell state ∧
    ∀ other ∈ later, other.method ≠ "onReset" ∧ ∀ state, ¬Marks other.method other.event cell state

theorem lastMarks_concat_iff {updates : List Update} {cell : Cell} {state : CellState} :
    LastMarks (updates ++ [u]) cell state ↔
      Marks u.method u.event cell state ∨
      (u.method ≠ "onReset" ∧ (∀ state, ¬Marks u.method u.event cell state) ∧
        LastMarks updates cell state) := by
  constructor
  · rintro ⟨earlier, mark, later, same, marks, quiet⟩
    obtain rfl | ⟨later, last, rfl⟩ := later.eq_nil_or_concat
    · obtain ⟨_, last⟩ := List.append_inj' same rfl
      cases last
      exact .inl marks
    · rw [List.concat_eq_append, ← List.cons_append, ← List.append_assoc] at same
      obtain ⟨init, final⟩ := List.append_inj' same rfl
      cases final
      obtain ⟨method, other⟩ := quiet u (by simp)
      refine .inr ⟨method, other, earlier, mark, later, init, marks, ?_⟩
      intro v mem
      apply quiet
      simp [mem]
  · rintro (marks | ⟨method, other, earlier, mark, later, rfl, marks, quiet⟩)
    · refine ⟨updates, u, [], rfl, marks, ?_⟩
      simp
    · refine ⟨earlier, mark, later ++ [u], ?_, marks, ?_⟩
      · simp
      · intro v mem
        rcases List.mem_append.mp mem with mem | last
        · exact quiet v mem
        · rw [List.mem_singleton.mp last]
          exact ⟨method, other⟩

/--
A grid shows the marks that are the last ones.
-/
def IsMarked (g : Grid) (accepted : List Update) : Prop :=
  ∀ row col state, g.cell row col = some state ↔ LastMarks accepted ⟨row, col⟩ state

theorem Shows.isMarked (h : g.Shows u.method u.event after) {accepted : List Update}
    (marked : g.IsMarked accepted) : after.IsMarked (accepted ++ [u]) := by
  intro row col state
  rw [lastMarks_concat_iff]
  cases h with
  | @mark cell shown marks _ _ =>
    rw [cell_put]
    split
    next same =>
      subst same
      simp only [Option.some.injEq]
      constructor
      · rintro rfl
        exact .inl marks
      · rintro (again | ⟨_, other, _⟩)
        · exact marks.state_eq again
        · exact absurd marks (other shown)
    next other =>
      have quiet (state : CellState) : ¬Marks u.method u.event ⟨row, col⟩ state := fun again =>
        other (marks.cell_eq again)
      rw [marked row col state]
      simp [quiet, marks.method_ne]
  | reset reset =>
    simp only [Grid.cell, List.lookup_nil, reduceCtorEq, false_iff]
    rintro (marks | ⟨other, _⟩)
    · exact marks.method_ne reset
    · exact other reset

theorem Shows.size_eq (h : g.Shows u.method u.event after) :
    after.rows = g.rows ∧ after.cols = g.cols := by
  cases h with
  | mark => exact ⟨rfl, rfl⟩
  | reset => exact ⟨rfl, rfl⟩

/--
A cell shows the mark that it was given last, unless the grid was reset since; then, and before it
is given one, it shows none. Grids accept marks for the cells inside them, and resets; any other
update they reject, and what they reject changes nothing.
-/
theorem cell_updateAll_eq_some_iff {σ : Type} [Stage σ] (name : String) (rows cols : UInt64)
    (updates : List Update) (stage : σ) :
    let start : Session Grid σ := { widget := { name, rows, cols }, stage }
    let s := start.updateAll updates
    (∀ row col state, s.widget.cell row col = some state ↔
      ∃ earlier u later, s.accepted = earlier ++ u :: later ∧
        Marks u.method u.event ⟨row, col⟩ state ∧
        ∀ other ∈ later, other.method ≠ "onReset" ∧
          ∀ state, ¬Marks other.method other.event ⟨row, col⟩ state) ∧
    ∀ u, ((s.react u).result = .ok () ↔
        u.method = "onReset" ∨
        ∃ cell state, Marks u.method u.event cell state ∧ cell.row < rows ∧ cell.col < cols) ∧
      ((s.react u).result ≠ .ok () →
        (s.react u).widget = s.widget ∧ (s.react u).stage = s.stage) := by
  intro start s
  let Kept (g : Grid) (accepted : List Update) : Prop :=
    g.IsMarked accepted ∧ g.rows = rows ∧ g.cols = cols
  have kept : Kept s.widget s.accepted := by
    apply Session.updateAll_induction (motive := Kept)
    · refine ⟨?_, rfl, rfl⟩
      simp [IsMarked, LastMarks, Grid.cell, Session.accepted, start]
    · rintro widget accepted u after turns ⟨marked, height, width⟩
      have shows := turns_iff.mp turns
      obtain ⟨sameRows, sameCols⟩ := shows.size_eq
      exact ⟨shows.isMarked marked, sameRows.trans height, sameCols.trans width⟩
  obtain ⟨marked, height, width⟩ := kept
  refine ⟨marked, ?_⟩
  intro u
  constructor
  · simp only [Session.result_react_eq_ok_iff, turns_iff, exists_shows_iff, height, width]
  · apply Session.react_of_result_ne_ok

end Grid

end Stagecraft
