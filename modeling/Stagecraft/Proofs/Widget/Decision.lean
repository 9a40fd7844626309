import Stagecraft.Proofs.Handler
import Stagecraft.Widget.Stock

/-!
This module contains that the stock widgets decide what becomes of them before anything happens:
`StockWidget.update_eq`. None of them has changed itself or the stage when it refuses an event.
-/

namespace Stagecraft

/--
The reaction of a widget that has decided what becomes of it and which animation shows that, or that
it refuses. Nothing changes if it refuses.
-/
def Reaction.ofResponse {ω σ : Type} [Stage σ] (widget : ω) (stage : σ) (runTime : Float) :
    Except WidgetError (ω × Animation) → Reaction ω σ
  | .ok (widget, animation) =>
    { result := .ok (), widget, stage := Stage.play stage [animation] runTime }
  | .error cause => { result := .error (.widget cause), widget, stage }

variable {σ : Type} [Stage σ] {method : String} {event : Event} {runTime : Float} {stage : σ}

namespace Counter

/--
What becomes of the counter. All changes are shown alike.
-/
def respond (c : Counter) (method : String) : Except WidgetError (Counter × Animation) :=
  let shown (count : UInt64) : Counter × Animation :=
    ({ c with count }, { target := c.name, effect := "count" })
  match method with
  | "onEvent" => .ok (shown (c.count + 1))
  | "onReset" => .ok (shown 0)
  | method => .error (.noMethod c.name method)

theorem update_eq {c : Counter} :
    Widget.update c method event runTime stage =
      .ofResponse c stage runTime (c.respond method) := by
  unfold respond
  split
  · rfl
  · rfl
  next unhandled reset =>
    simp [Widget.update, Reaction.ofHandler, handle, Reaction.ofResponse]

end Counter

namespace Queue

def respond (q : Queue) (method : String) (event : Event) :
    Except WidgetError (Queue × Animation) :=
  match method with
  | "onEnqueue" =>
    if q.isFull then
      .error (.queueFull q.name)
    else
      .ok ({ q with items := q.items ++ [event.element] }, { target := q.name, effect := "append" })
  | "onDequeue" =>
    match q.items with
    | [] => .error (.queueEmpty q.name)
    | _ :: items => .ok ({ q with items }, { target := q.name, effect := "shift" })
  | method => .error (.noMethod q.name method)

theorem update_eq {q : Queue} :
    Widget.update q method event runTime stage =
      .ofResponse q stage runTime (q.respond method event) := by
  unfold respond
  split
  · cases full : q.isFull with
    | true => simp [Widget.update, Reaction.ofHandler, handle, Reaction.ofResponse, full]
    | false => simp [Widget.update, Reaction.ofHandler, handle, Reaction.ofResponse, full]
  · cases held : q.items with
    | nil => simp [Widget.update, Reaction.ofHandler, handle, Reaction.ofResponse, held]
    | cons => simp [Widget.update, Reaction.ofHandler, handle, Reaction.ofResponse, held]
  next enqueue dequeue =>
    simp [Widget.update, Reaction.ofHandler, handle, Reaction.ofResponse]

end Queue

namespace Stack

def respond (s : Stack) (method : String) (event : Event) :
    Except WidgetError (Stack × Animation) :=
  match method with
  | "onPush" =>
    .ok ({ s with items := event.element :: s.items }, { target := s.name, effect := "push" })
  | "onPop" =>
    match s.items with
    | [] => .error (.stackEmpty s.name)
    | _ :: items => .ok ({ s with items }, { target := s.name, effect := "pop" })
  | method => .error (.noMethod s.name method)

theorem update_eq {s : Stack} :
    Widget.update s method event runTime stage =
      .ofResponse s stage runTime (s.respond method event) := by
  unfold respond
  split
  · rfl
  · cases held : s.items with
    | nil => simp [Widget.update, Reaction.ofHandler, handle, Reaction.ofResponse, held]
    | cons => simp [Widget.update, Reaction.ofHandler, handle, Reaction.ofResponse, held]
  next push pop =>
    simp [Widget.update, Reaction.ofHandler, handle, Reaction.ofResponse]

end Stack

namespace Grid

def marking? : String → Option (CellState × String)
  | "onEnqueue" => some (.frontier, "fill")
  | "onDequeue" => some (.current, "indicate")
  | "onVisit" => some (.visited, "fill")
  | "onGoal" => some (.goal, "flash")
  | _ => none

def respond (g : Grid) (method : String) (event : Event) : Except WidgetError (Grid × Animation) :=
  match marking? method with
  | some (state, effect) => do
    let cell ← g.node event
    return (g.put cell state, { target := s!"{g.name}[{cell.row},{cell.col}]", effect })
  | none =>
    if method = "onReset" then
      .ok ({ g with cells := [] }, { target := g.name, effect := "reset" })
    else
      .error (.noMethod g.name method)

theorem ofHandler_mark {g : Grid} {state : CellState} {effect : String} :
    .ofHandler (mark event state effect runTime) g stage =
      Reaction.ofResponse g stage runTime do
        let cell ← g.node event
        return (g.put cell state, { target := s!"{g.name}[{cell.row},{cell.col}]", effect }) := by
  unfold Reaction.ofHandler mark
  simp only [Handler.on_bind, Handler.on_widget, Handler.on_liftM]
  cases g.node event with
  | ok cell => rfl
  | error cause => rfl

theorem update_eq {g : Grid} :
    Widget.update g method event runTime stage =
      .ofResponse g stage runTime (g.respond method event) := by
  unfold respond
  cases marking : marking? method with
  | some marking =>
    unfold marking? at marking
    split at marking
    case h_5 => cases marking
    -- The four methods that mark a cell differ in the mark and the effect alone.
    all_goals
      cases marking
      exact ofHandler_mark
  | none =>
    dsimp only
    split
    next reset =>
      rw [reset]
      rfl
    next reset =>
      unfold marking? at marking
      split at marking
      case h_5 enqueue dequeue visit goal =>
        simp [Widget.update, Reaction.ofHandler, handle, Reaction.ofResponse]
      all_goals cases marking

end Grid

namespace StockWidget

def respond (w : StockWidget) (method : String) (event : Event) :
    Except WidgetError (StockWidget × Animation) :=
  match w with
  | grid g => (fun (g, animation) => (grid g, animation)) <$> g.respond method event
  | queue q => (fun (q, animation) => (queue q, animation)) <$> q.respond method event
  | stack s => (fun (s, animation) => (stack s, animation)) <$> s.respond method event
  | counter c => (fun (c, animation) => (counter c, animation)) <$> c.respond method

theorem map_ofResponse {ω ω' : Type} {wrap : ω → ω'} {w : ω}
    {response : Except WidgetError (ω × Animation)} :
    (Reaction.ofResponse w stage runTime response).map wrap =
      .ofResponse (wrap w) stage runTime
        ((fun (w, animation) => (wrap w, animation)) <$> response) := by
  cases response with
  | ok => rfl
  | error => rfl

theorem update_eq {w : StockWidget} :
    Widget.update w method event runTime stage =
      .ofResponse w stage runTime (w.respond method event) := by
  cases w with
  | grid g =>
    change (Widget.update g method event runTime stage).map grid = _
    rw [Grid.update_eq, map_ofResponse]
    rfl
  | queue q =>
    change (Widget.update q method event runTime stage).map queue = _
    rw [Queue.update_eq, map_ofResponse]
    rfl
  | stack s =>
    change (Widget.update s method event runTime stage).map stack = _
    rw [Stack.update_eq, map_ofResponse]
    rfl
  | counter c =>
    change (Widget.update c method event runTime stage).map counter = _
    rw [Counter.update_eq, map_ofResponse]
    rfl

end StockWidget

end Stagecraft
