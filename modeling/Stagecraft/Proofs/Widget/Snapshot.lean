import Mathlib.Data.Set.Function
import Stagecraft.Proofs.Document.Numeral
import Stagecraft.Proofs.Widget.Response

/-!
This module contains what a snapshot of a grid tells. It has one entry for each marked cell, so that
the grid can be made out from it, but for the name.
-/

namespace Stagecraft

theorem Value.ofIndex_inj {m n : UInt64} : ofIndex m = ofIndex n ↔ m = n := by
  rw [← toIndex?_eq_some_iff_ofIndex, toIndex?_eq_some_iff_ofIndex.mpr rfl, Option.some_inj]

namespace Cell

theorem toList_key (c : Cell) :
    c.key.toList = Nat.toDigits 10 c.row.toNat ++ ',' :: Nat.toDigits 10 c.col.toNat := by
  have digits (n : UInt64) : (toString n).toList = Nat.toDigits 10 n.toNat := Nat.toList_repr
  have comma : (toString ",").toList = [','] := rfl
  unfold key
  simp [digits, comma]

/--
The comma ends the row, since no digit is one.
-/
theorem key_injective : Function.Injective key := by
  intro c d same
  have comma (n : Nat) : ',' ∉ Nat.toDigits 10 n := fun mem =>
    Bool.noConfusion (Lexer.Numeral.areDigits_toDigits n ',' mem)
  have same := congrArg String.toList same
  rw [toList_key, toList_key, List.append_cons_inj_of_notMem (comma _) (comma _)] at same
  have number {m n : UInt64} (same : Nat.toDigits 10 m.toNat = Nat.toDigits 10 n.toNat) :
      m = n := by
    rw [← UInt64.toNat_inj, ← Nat.repr_inj, ← String.toList_inj, Nat.toList_repr, Nat.toList_repr,
      same]
  obtain ⟨row, _, col⟩ := same
  rw [Cell.mk.injEq]
  exact ⟨number row, number col⟩

end Cell

/--
The mark that an entry of a snapshot stands for.
-/
def CellState.ofValue? (value : Value) : Option CellState :=
  all.find? fun state => value.toText? = some state.name

theorem CellState.ofValue?_text (state : CellState) : ofValue? (.text state.name) = some state := by
  cases state with
  | _ => rfl

namespace Grid

/--
The mark of a cell as a snapshot has it.
-/
def cellIn? (snapshot : Value) (row col : UInt64) : Option CellState := do
  let cells ← snapshot.member? "cells"
  let entry ← cells.member? (Cell.key ⟨row, col⟩)
  CellState.ofValue? entry

def entries (g : Grid) : Table Value :=
  g.cells.foldr (fun (cell, state) t => t.insert cell.key (.text state.name)) .empty

variable {g g' : Grid}

theorem get?_entries_key (g : Grid) (row col : UInt64) :
    g.entries.get? (Cell.key ⟨row, col⟩) = (g.cell row col).map (.text ·.name) := by
  obtain ⟨name, rows, cols, cells⟩ := g
  unfold Grid.entries Grid.cell
  induction cells with
  | nil => rfl
  | cons first rest ih =>
    obtain ⟨marked, state⟩ := first
    rw [List.foldr_cons, Table.get?_insert, List.lookup_cons]
    by_cases same : marked = ⟨row, col⟩
    · simp [same]
    · have other : ((⟨row, col⟩ : Cell) == marked) = false := beq_false_of_ne (Ne.symm same)
      rw [if_neg (Cell.key_injective.ne same), ih, other]

theorem exists_key_of_get?_entries {name : String} {value : Value}
    (h : g.entries.get? name = some value) : ∃ cell : Cell, cell.key = name := by
  obtain ⟨_, rows, cols, cells⟩ := g
  unfold Grid.entries at h
  induction cells with
  | nil => cases h
  | cons first rest ih =>
    rw [List.foldr_cons, Table.get?_insert] at h
    split at h
    next same => exact ⟨first.1, same⟩
    next => exact ih h

theorem bind_get?_entries (g : Grid) (row col : UInt64) :
    (g.entries.get? (Cell.key ⟨row, col⟩)).bind CellState.ofValue? = g.cell row col := by
  rw [get?_entries_key]
  cases g.cell row col with
  | none => rfl
  | some state => exact state.ofValue?_text

theorem entries_eq_iff :
    g.entries = g'.entries ↔ ∀ row col, g.cell row col = g'.cell row col := by
  constructor
  · intro same row col
    rw [← bind_get?_entries, same, bind_get?_entries]
  · intro same
    apply Entries.ext
    intro name
    by_cases known : ∃ cell : Cell, cell.key = name
    · obtain ⟨⟨row, col⟩, rfl⟩ := known
      rw [get?_entries_key, get?_entries_key, same]
    · have missing (g : Grid) : g.entries.get? name = none := by
        rw [Option.eq_none_iff_forall_ne_some]
        exact fun _ found => known (exists_key_of_get?_entries found)
      rw [missing g, missing g']

theorem member?_snapshot (g : Grid) :
    g.snapshot.member? "rows" = some (.ofIndex g.rows) ∧
    g.snapshot.member? "cols" = some (.ofIndex g.cols) ∧
    g.snapshot.member? "cells" = some (.object g.entries) := by
  unfold snapshot Value.ofMembers
  simp only [Value.member?, Table.get?_ofList]
  exact ⟨rfl, rfl, rfl⟩

theorem bijOn_key (g : Grid) :
    Set.BijOn Cell.key {c | (g.cell c.row c.col).isSome} {name | g.entries.contains name} := by
  have contains (row col : UInt64) :
      g.entries.contains (Cell.key ⟨row, col⟩) = (g.cell row col).isSome := by
    unfold Entries.contains
    rw [get?_entries_key, Option.isSome_map]
  refine ⟨?_, Cell.key_injective.injOn, ?_⟩
  · rintro ⟨row, col⟩ marked
    exact (contains row col).trans marked
  · intro name known
    obtain ⟨value, found⟩ := Option.isSome_iff_exists.mp known
    obtain ⟨⟨row, col⟩, rfl⟩ := exists_key_of_get?_entries found
    exact ⟨⟨row, col⟩, (contains row col).symm.trans known, rfl⟩

/--
Two grids have the same snapshot if they are of the same size and the same cells are marked alike. A
snapshot has exactly one entry for each marked cell: no two cells have the same key, and what the
entry says is the mark.
-/
theorem snapshot_eq_snapshot_iff (g g' : Grid) :
    (g.snapshot = g'.snapshot ↔
      g.rows = g'.rows ∧ g.cols = g'.cols ∧ ∀ row col, g.cell row col = g'.cell row col) ∧
    Function.Injective Cell.key ∧
    (∃ entries, g.snapshot.member? "cells" = some (.object entries) ∧
      Set.BijOn Cell.key {c | (g.cell c.row c.col).isSome} {name | entries.contains name}) ∧
    ∀ row col, cellIn? g.snapshot row col = g.cell row col := by
  obtain ⟨rows, cols, cells⟩ := member?_snapshot g
  refine ⟨?_, Cell.key_injective, ⟨g.entries, cells, bijOn_key g⟩, ?_⟩
  · obtain ⟨rows', cols', cells'⟩ := member?_snapshot g'
    rw [← entries_eq_iff]
    constructor
    · intro same
      rw [same] at rows cols cells
      rw [rows', Option.some_inj, Value.ofIndex_inj] at rows
      rw [cols', Option.some_inj, Value.ofIndex_inj] at cols
      rw [cells', Option.some_inj, Value.object.injEq] at cells
      exact ⟨rows.symm, cols.symm, cells.symm⟩
    · rintro ⟨rows, cols, cells⟩
      unfold Grid.entries at cells
      unfold snapshot
      rw [rows, cols, cells]
  · intro row col
    unfold cellIn?
    rw [cells]
    exact bind_get?_entries g row col

end Grid

end Stagecraft
