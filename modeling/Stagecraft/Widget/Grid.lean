import Stagecraft.Widget.Basic

/-!
This module contains the grid, a board whose cells are marked as a search goes on.
-/

namespace Stagecraft

/--
The marks of cells.
-/
inductive CellState where
  | frontier
  | current
  | visited
  | goal
  deriving DecidableEq, Repr

namespace CellState

def all : List CellState := [frontier, current, visited, goal]

def name : CellState → String
  | frontier => "frontier"
  | current => "current"
  | visited => "visited"
  | goal => "goal"

def schema : Schema CellState := .choice all name

end CellState

structure Cell where
  row : UInt64
  col : UInt64
  deriving DecidableEq, Repr

def Cell.key (c : Cell) : String := s!"{c.row},{c.col}"

structure Grid where
  name : String
  rows : UInt64
  cols : UInt64
  /--
  The marked cells, the one marked last first. No cell is listed twice.
  -/
  cells : List (Cell × CellState) := []

namespace Grid

def ofParams (name : String) (params : Table Value) : Except Error Grid := do
  let rows ← positiveParam params "rows" 5
  let cols ← positiveParam params "cols" 5
  return { name, rows, cols }

def cell (g : Grid) (row col : UInt64) : Option CellState := g.cells.lookup ⟨row, col⟩

def put (g : Grid) (cell : Cell) (state : CellState) : Grid :=
  { g with cells := (cell, state) :: g.cells.filter (·.1 ≠ cell) }

/--
The pair of whole numbers that an event calls `node`, if it does.
-/
def coordinates? (event : Event) : Option Cell :=
  match event.payload.get? "node" with
  | some (.array [row, col]) =>
    match row.toIndex?, col.toIndex? with
    | some row, some col => some { row, col }
    | _, _ => none
  | _ => none

def node (g : Grid) (event : Event) : Except WidgetError Cell :=
  match coordinates? event with
  | none => .error (.noCell g.name)
  | some cell =>
    if cell.row < g.rows ∧ cell.col < g.cols then
      .ok cell
    else
      .error (.outside g.name cell.row cell.col g.rows g.cols)

section

open Handler

variable {σ : Type} [Stage σ]

def mark (event : Event) (state : CellState) (effect : String) (runTime : Float) :
    Handler (Grid × σ) Unit := do
  let g ← widget
  let cell ← (g.node event).mapError Error.widget
  setWidget (g.put cell state)
  play { target := s!"{g.name}[{cell.row},{cell.col}]", effect } runTime

def handle (method : String) (event : Event) (runTime : Float) : Handler (Grid × σ) Unit := do
  match method with
  | "onEnqueue" => mark event .frontier "fill" runTime
  | "onDequeue" => mark event .current "indicate" runTime
  | "onVisit" => mark event .visited "fill" runTime
  | "onGoal" => mark event .goal "flash" runTime
  | "onReset" =>
    let g ← widget
    setWidget { g with cells := [] }
    play { target := g.name, effect := "reset" } runTime
  | method => refuse (.noMethod (← widget).name method)

end

def snapshot (g : Grid) : Value :=
  let cells := g.cells.foldr
    (fun (cell, state) (t : Table Value) => t.insert cell.key (.text state.name)) .empty
  .ofMembers [("rows", .ofIndex g.rows), ("cols", .ofIndex g.cols), ("cells", .object cells)]

instance : Widget Grid where
  kind _ := "grid"
  update g method event runTime stage := .ofHandler (handle method event runTime) g stage
  snapshot := snapshot

end Grid

end Stagecraft
