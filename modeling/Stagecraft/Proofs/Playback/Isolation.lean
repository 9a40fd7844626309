import Stagecraft.Proofs.Engine.Build
import Stagecraft.Proofs.Playback.Account
import Stagecraft.Proofs.Playback.Answer
import Stagecraft.Stage.Rehearsal

/-!
This module contains the share of one stock widget in a playback. What becomes of it follows from
the calls that are addressed to it, in order; other widgets and their bindings do not interfere.
-/

namespace Stagecraft

def Binding.methodOf? (name : String) : Binding → Option String
  | .method widget called _ => if widget = name then some called else none
  | .malformed _ => none

namespace Routing

def methods (r : Routing) (name kind : String) : List String :=
  ((r.bindings? kind).getD []).filterMap (·.methodOf? name)

def calls (r : Routing) (name : String) (events : List Event) : List (String × Event) :=
  events.flatMap fun event => (r.methods name event.kind).map fun method => (method, event)

end Routing

namespace Trial

def call? (name : String) (t : Trial) : Option (String × Event) :=
  (t.binding.methodOf? name).map fun method => (method, t.event)

theorem filterMap_trials (r : Routing) (name : String) (events : List Event) :
    (r.trials events).filterMap (call? name) = r.calls name events := by
  unfold Routing.trials Routing.calls Routing.methods
  rw [List.filterMap_flatMap]
  congr 1
  funext event
  rw [List.filterMap_map, List.map_filterMap]
  rfl

theorem get?_answer (t : Trial) (pool : Table StockWidget) (name : String) :
    (t.answer pool).2.get? name =
      (pool.get? name).map fun widget => (t.call? name).toList.foldl StockWidget.react widget := by
  obtain ⟨event, binding⟩ := t
  unfold answer call?
  cases binding with
  | malformed raw => simp [Binding.methodOf?]
  | method other method params =>
    dsimp only [Binding.methodOf?]
    by_cases same : other = name
    · subst same
      cases found : pool.get? other with
      | none => simp [found]
      | some widget =>
        cases response : widget.respond method event with
        | error cause => simp [response, found, StockWidget.react_of_error]
        | ok outcome =>
          obtain ⟨after, animation⟩ := outcome
          simp [response, StockWidget.react_of_ok response]
    · cases found : pool.get? other with
      | none => simp [same]
      | some widget =>
        cases response : widget.respond method event with
        | error cause => simp [response, same]
        | ok outcome => simp [response, same]

theorem get?_answerAll (ts : List Trial) (pool : Table StockWidget) (name : String) :
    (answerAll ts pool).2.get? name =
      (pool.get? name).map fun widget =>
        (ts.filterMap (call? name)).foldl StockWidget.react widget := by
  induction ts generalizing pool with
  | nil => simp [answerAll]
  | cons t rest ih =>
    unfold answerAll
    rw [ih, get?_answer, Option.map_map, List.filterMap_cons]
    congr 1
    funext widget
    cases t.call? name with
    | none => rfl
    | some call => rfl

end Trial

variable {σ τ ι κ : Type} [Stage σ] [Stage τ] [EventSource ι] [EventSource κ]

theorem Router.get?_widgets_foldl_dispatch (events : List Event) (r : Router StockWidget σ)
    (name : String) :
    (events.foldl dispatch r).engine.widgets.get? name =
      (r.engine.widgets.get? name).map fun widget =>
        (r.engine.routing.calls name events).foldl StockWidget.react widget := by
  rw [foldl_dispatch_eq_answers]
  dsimp only
  rw [Trial.get?_answerAll, Trial.filterMap_trials]

namespace Playback

theorem get?_widgets_take (p : Playback StockWidget σ ι) (count : Nat) (name : String) :
    (p.take count).2.router.engine.widgets.get? name =
      (p.router.engine.widgets.get? name).map fun widget =>
        (p.router.engine.routing.calls name (p.take count).1).foldl StockWidget.react widget := by
  rw [take_eq]
  apply Router.get?_widgets_foldl_dispatch

/--
What a playback makes of a widget is what the calls addressed to it make of it, one after the other;
a call that fails leaves it as it was. So two scenes that declare the widget alike, and bind the
same methods of it in the same order to each kind of event, leave it alike by the same events,
whatever else they hold.
-/
theorem get?_widgets_take_eq_foldl (name : String) :
    (∀ (p : Playback StockWidget σ ι) (count : Nat) (widget : StockWidget),
      p.router.engine.widgets.get? name = some widget →
      (p.take count).2.router.engine.widgets.get? name =
        some ((p.router.engine.routing.calls name (p.take count).1).foldl .react widget)) ∧
    (∀ p : Playback StockWidget σ (List Event), (p.take p.remaining).1 = p.events) ∧
    (∀ (widget : StockWidget) (method : String) (event : Event) (seconds : Float) (stage : σ),
      let reaction := Widget.update widget method event seconds stage
      reaction.widget = widget.react (method, event) ∧
      ∀ error, reaction.result = .error error → reaction.widget = widget) ∧
    ∀ (first second : SceneSpec) (timing other : Timing) (p : Playback StockWidget σ ι)
      (q : Playback StockWidget τ κ) (m n : Nat),
      Engine.build .stock first timing = .ok p.router.engine →
      Engine.build .stock second other = .ok q.router.engine →
      first.widgets.get? name = second.widgets.get? name →
      (∀ kind, (Routing.ofSpecs first.eventBindings).methods name kind =
        (Routing.ofSpecs second.eventBindings).methods name kind) →
      (p.take m).1 = (q.take n).1 →
        (p.take m).2.router.engine.widgets.get? name =
          (q.take n).2.router.engine.widgets.get? name := by
  refine ⟨?_, ?_, ?_, ?_⟩
  · intro p count widget known
    rw [get?_widgets_take, known]
    rfl
  · intro p
    rw [take_eq, EventSource.pull_list]
    exact List.take_length
  · intro widget method event seconds stage
    refine ⟨StockWidget.widget_update widget method event seconds stage, ?_⟩
    intro error failed
    cases response : widget.respond method event with
    | error cause => rw [StockWidget.update_of_error response]
    | ok outcome =>
      rw [StockWidget.update_of_ok response] at failed
      cases failed
  · intro first second timing other p q m n built also spec methods events
    have routing := Engine.routing_build built
    have calls : p.router.engine.routing.calls name = q.router.engine.routing.calls name := by
      unfold Routing.calls
      rw [routing, Engine.routing_build also]
      simp only [methods]
    rw [get?_widgets_take, get?_widgets_take, Engine.get?_widgets_build built,
      Engine.get?_widgets_build also, spec, calls, events]

/--
A counter on its own, and beside a grid that refuses every event, with bindings to no method, to the
grid and to no widget around its own.
-/
theorem get?_widgets_take_of_counter :
    let steps : Table WidgetSpec := .ofList [("steps", { kind := "counter" })]
    let first : SceneSpec := {
      name := "alone", algorithm := "bfs", widgets := steps
      eventBindings := .ofList [("visit", [.bare "steps.onEvent"])] }
    let second : SceneSpec := {
      name := "crowd", algorithm := "dfs", widgets := steps.insert "grid" { kind := "grid" }
      eventBindings := .ofList [
        ("visit", [.bare "steps", .bare "grid.onVisit", .bare "steps.onEvent", .bare "a.b"])] }
    let counter : StockWidget := .counter { name := "steps" }
    let alone : Engine StockWidget := {
      name := "alone", algorithm := "bfs", widgets := .ofList [("steps", counter)]
      routing := .ofSpecs first.eventBindings, tempo := { timing := {}, factor := 1.0 } }
    let visits : List Event := [{ kind := "visit" }, { kind := "visit" }]
    let playback (engine : Engine StockWidget) : Playback StockWidget Rehearsal (List Event) :=
      { router := { engine, stage := {} }, events := visits }
    let left (engine : Engine StockWidget) :=
      ((playback engine).take 2).2.router.engine.widgets.get? "steps"
    Engine.build .stock first {} = .ok alone ∧
    left alone = some (.counter { name := "steps", count := 2 }) ∧
    ∃ crowd, Engine.build .stock second {} = .ok crowd ∧ left alone = left crowd := by
  intro steps first second counter alone visits playback left
  have methods (kind : String) : (Routing.ofSpecs first.eventBindings).methods "steps" kind =
      (Routing.ofSpecs second.eventBindings).methods "steps" kind := by
    unfold Routing.methods Routing.bindings? Routing.ofSpecs
    rw [Entries.get?_map, Entries.get?_map, Table.get?_ofList, Table.get?_ofList]
    by_cases h : kind = "visit"
    · subst h
      rfl
    · have other : (kind == "visit") = false := by simpa using h
      simp [List.lookup_cons, other]
  have isolated :=
    get?_widgets_take_eq_foldl (σ := Rehearsal) (τ := Rehearsal) (ι := List Event) (κ := List Event)
      "steps"
  have made : (Engine.build .stock second {}).isOk = true := rfl
  refine ⟨rfl, ?_, ?_⟩
  · exact isolated.1 (playback alone) 2 counter rfl
  · cases built : Engine.build .stock second {} with
    | error error =>
      rw [built] at made
      cases made
    | ok crowd =>
      refine ⟨crowd, rfl, ?_⟩
      apply isolated.2.2.2 first second {} {} (playback alone) (playback crowd) 2 2 rfl built rfl
        methods rfl

end Playback

end Stagecraft
