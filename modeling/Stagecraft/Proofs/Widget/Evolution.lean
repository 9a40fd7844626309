import Stagecraft.Proofs.Playback.Answer
import Stagecraft.Proofs.Widget.Response

/-!
This module contains what calls can make of a widget. A stock widget stays of the kind, the name and
the size that it was made with; what is put into it never outgrows it.
-/

namespace Stagecraft

/--
The widgets that `widget` can become by calls that are made on stages of the type `σ`, whether or
not they fail.
-/
inductive Widget.Evolves (σ : Type) [Stage σ] {ω : Type} [Widget ω] (widget : ω) : ω → Prop where
  | refl : Evolves σ widget widget
  | update {other : ω} (h : Evolves σ widget other) (method : String) (event : Event)
    (seconds : Float) (stage : σ) :
    Evolves σ widget (Widget.update other method event seconds stage).widget

namespace Widget.Evolves

variable {σ ω : Type} [Stage σ] [Widget ω]

theorem trans {first second third : ω} (h : Evolves σ first second) (h' : Evolves σ second third) :
    Evolves σ first third := by
  induction h' with
  | refl => exact h
  | update _ method event seconds stage ih => exact .update ih method event seconds stage

/--
Whatever no call changes is the same for all that a widget becomes.
-/
theorem map_eq {γ : Type} {f : ω → γ} {widget other : ω} (h : Evolves σ widget other)
    (kept : ∀ (w : ω) method event seconds (stage : σ),
      f (Widget.update w method event seconds stage).widget = f w) : f other = f widget := by
  induction h with
  | refl => rfl
  | update _ method event seconds stage ih => rw [kept, ih]

end Widget.Evolves

def Grid.IsSound (g : Grid) : Prop :=
  ∀ marked ∈ g.cells, marked.1.row < g.rows ∧ marked.1.col < g.cols

def Queue.IsSound (q : Queue) : Prop :=
  ∀ capacity, q.capacity = some capacity → q.items.length ≤ capacity.toNat

/--
The cells of a grid lie inside it, and a queue that has a capacity does not exceed it.
-/
def StockWidget.IsSound : StockWidget → Prop
  | grid g => g.IsSound
  | queue q => q.IsSound
  | stack _ | counter _ => True

/--
Stock widgets that may differ in what was put into them, and in nothing else.
-/
inductive StockWidget.SameMake : StockWidget → StockWidget → Prop where
  | grid (g : Grid) (cells : List (Cell × CellState)) : SameMake (.grid g) (.grid { g with cells })
  | queue (q : Queue) (items : List Value) : SameMake (.queue q) (.queue { q with items })
  | stack (s : Stack) (items : List Value) : SameMake (.stack s) (.stack { s with items })
  | counter (c : Counter) (count : UInt64) : SameMake (.counter c) (.counter { c with count })

theorem Counter.exists_of_respond {c after : Counter} {method : String} {animation : Animation}
    (h : c.respond method = .ok (after, animation)) : ∃ count, after = { c with count } := by
  unfold respond at h
  dsimp only at h
  split at h
  · cases h
    exact ⟨_, rfl⟩
  · cases h
    exact ⟨_, rfl⟩
  · cases h

theorem Grid.IsSound.put {g : Grid} (h : g.IsSound) {cell : Cell} (row : cell.row < g.rows)
    (col : cell.col < g.cols) (state : CellState) : (g.put cell state).IsSound := by
  intro marked mem
  cases List.mem_cons.mp mem with
  | inl same =>
    rw [same]
    exact ⟨row, col⟩
  | inr others => exact h marked (List.mem_filter.mp others).1

theorem Queue.IsSound.append {q : Queue} (free : q.isFull = false) (item : Value) :
    ({ q with items := q.items ++ [item] } : Queue).IsSound := by
  intro capacity bounded
  have := isFull_eq_false_iff.mp free capacity bounded
  rw [List.length_append, List.length_singleton]
  omega

theorem Grid.Shows.isSound {g after : Grid} {method : String} {event : Event}
    (h : g.Shows method event after) (sound : g.IsSound) : after.IsSound := by
  cases h with
  | mark marks row col => apply sound.put row col
  | reset => simp [IsSound]

theorem Queue.Serves.isSound {q after : Queue} {method : String} {event : Event}
    (h : q.Serves method event after) (sound : q.IsSound) : after.IsSound := by
  cases h with
  | enqueue method room => apply IsSound.append room
  | dequeue method held =>
    intro capacity bounded
    have := sound capacity bounded
    rw [held, List.length_cons] at this
    exact Nat.le_of_succ_le this

namespace StockWidget

/--
What a stock widget that accepts a call becomes.
-/
theorem sameMake_of_respond {widget after : StockWidget} {method : String} {event : Event}
    {animation : Animation} (h : widget.respond method event = .ok (after, animation)) :
    widget.SameMake after ∧ (widget.IsSound → after.IsSound) := by
  cases widget with
  | grid g =>
    obtain ⟨⟨other, _⟩, done, same⟩ := map_eq_ok_iff.mp h
    cases same
    have shows := Grid.exists_respond_iff.mp ⟨_, done⟩
    refine ⟨?_, shows.isSound⟩
    cases shows with
    | mark => apply SameMake.grid
    | reset => apply SameMake.grid
  | queue q =>
    obtain ⟨⟨other, _⟩, done, same⟩ := map_eq_ok_iff.mp h
    cases same
    have serves := Queue.exists_respond_iff.mp ⟨_, done⟩
    refine ⟨?_, serves.isSound⟩
    cases serves with
    | enqueue => apply SameMake.queue
    | dequeue => apply SameMake.queue
  | stack s =>
    obtain ⟨⟨other, _⟩, done, same⟩ := map_eq_ok_iff.mp h
    cases same
    have piles := Stack.exists_respond_iff.mp ⟨_, done⟩
    refine ⟨?_, id⟩
    cases piles with
    | push => apply SameMake.stack
    | pop => apply SameMake.stack
  | counter c =>
    obtain ⟨⟨other, _⟩, done, same⟩ := map_eq_ok_iff.mp h
    cases same
    obtain ⟨count, rfl⟩ := Counter.exists_of_respond done
    exact ⟨.counter c count, id⟩

namespace SameMake

theorem refl (widget : StockWidget) : widget.SameMake widget := by
  cases widget with
  | grid g => exact .grid g g.cells
  | queue q => exact .queue q q.items
  | stack s => exact .stack s s.items
  | counter c => exact .counter c c.count

theorem trans {first second third : StockWidget} (h : first.SameMake second)
    (h' : second.SameMake third) : first.SameMake third := by
  cases h with
  | grid g =>
    cases h' with
    | grid _ cells => exact .grid g cells
  | queue q =>
    cases h' with
    | queue _ items => exact .queue q items
  | stack s =>
    cases h' with
    | stack _ items => exact .stack s items
  | counter c =>
    cases h' with
    | counter _ count => exact .counter c count

theorem kind_eq {widget other : StockWidget} (h : widget.SameMake other) :
    Widget.kind other = Widget.kind widget := by
  cases h with
  | _ => rfl

end SameMake

theorem sameMake_react (widget : StockWidget) (call : String × Event) :
    widget.SameMake (widget.react call) ∧ (widget.IsSound → (widget.react call).IsSound) := by
  obtain ⟨method, event⟩ := call
  cases h : widget.respond method event with
  | error cause =>
    rw [react_of_error h]
    exact ⟨.refl widget, id⟩
  | ok response =>
    rw [react_of_ok h]
    exact sameMake_of_respond h

end StockWidget

/--
Widgets some of which may be stock ones, which act as they do on their own.
-/
class StockPool (ω : Type) [Widget ω] where
  stock? : ω → Option StockWidget
  kind_stock {widget : ω} {stock : StockWidget} :
    stock? widget = some stock → Widget.kind widget = Widget.kind stock
  stock?_update {σ : Type} [Stage σ] (widget : ω) (method : String) (event : Event)
    (seconds : Float) (stage : σ) :
    stock? (Widget.update widget method event seconds stage).widget =
      (stock? widget).map fun stock => (Widget.update stock method event seconds stage).widget

instance : StockPool StockWidget where
  stock? := some
  kind_stock := by
    intro widget stock h
    cases h
    rfl
  stock?_update := by
    intros
    rfl

instance {α : Type} [Widget α] : StockPool (StockWidget ⊕ α) where
  stock? := Sum.getLeft?
  kind_stock := by
    intro widget stock h
    cases widget with
    | inl widget =>
      cases h
      rfl
    | inr widget => cases h
  stock?_update := by
    intro σ _ widget method event seconds stage
    cases widget with
    | inl widget => rfl
    | inr widget => rfl

section Pool

open StockPool (stock?)

variable {ω σ : Type} [Widget ω] [StockPool ω] [Stage σ]

/--
What a widget of a pool can become. If it is a stock one, it is made as it was, and stays sound.
-/
structure Resembles (σ : Type) [Stage σ] (widget other : ω) : Prop where
  evolves : Widget.Evolves σ widget other
  stock : Option.Rel (fun left right : StockWidget =>
    left.SameMake right ∧ (left.IsSound → right.IsSound)) (stock? widget) (stock? other)

theorem resembles_of_evolves {widget other : ω} (h : Widget.Evolves σ widget other) :
    Resembles σ widget other := by
  refine ⟨h, ?_⟩
  induction h with
  | refl =>
    cases stock? widget with
    | none => exact .none
    | some stock => exact .some ⟨.refl stock, id⟩
  | @update before evolves method event seconds stage ih =>
    -- A pool updates a stock widget as it would be on its own, so its answer is known.
    rw [StockPool.stock?_update]
    cases found : stock? before with
    | none =>
      rw [found] at ih
      exact ih
    | some stock =>
      rw [found] at ih
      generalize stock? widget = start at ih
      cases ih with
      | @some first _ same =>
        obtain ⟨make, sound⟩ := stock.sameMake_react (method, event)
        rw [← StockWidget.widget_update stock method event seconds stage] at make sound
        exact .some ⟨same.1.trans make, fun start => sound (same.2 start)⟩

theorem Resembles.kind_eq {widget other : ω} (h : Resembles σ widget other)
    (kept : ∀ (w : ω) method event seconds (stage : σ), stock? w = none →
      Widget.kind (Widget.update w method event seconds stage).widget = Widget.kind w) :
    Widget.kind other = Widget.kind widget := by
  apply h.evolves.map_eq
  intro w method event seconds stage
  cases found : stock? w with
  | none => exact kept w method event seconds stage found
  | some stock =>
    have after := StockPool.stock?_update w method event seconds stage
    rw [found, Option.map_some, StockWidget.widget_update] at after
    rw [StockPool.kind_stock after, StockPool.kind_stock found]
    exact (stock.sameMake_react (method, event)).1.kind_eq

end Pool

end Stagecraft
