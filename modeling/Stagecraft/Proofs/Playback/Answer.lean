import Stagecraft.Proofs.Playback.Trial
import Stagecraft.Proofs.Widget.Decision

/-!
This module contains what stock widgets make of a playback. Their answers depend on the pool and on
nothing else: they look neither at the stage nor at the seconds they are given, and what they do on
the stage is one animation for each trial that succeeds.
-/

namespace Stagecraft

namespace StockWidget

def react (widget : StockWidget) (call : String × Event) : StockWidget :=
  match widget.respond call.1 call.2 with
  | .ok (widget, _) => widget
  | .error _ => widget

theorem react_of_error {widget : StockWidget} {method : String} {event : Event}
    {cause : WidgetError} (h : widget.respond method event = .error cause) :
    widget.react (method, event) = widget := by
  unfold react
  rw [h]

theorem react_of_ok {widget after : StockWidget} {method : String} {event : Event}
    {animation : Animation} (h : widget.respond method event = .ok (after, animation)) :
    widget.react (method, event) = after := by
  unfold react
  rw [h]

variable {σ : Type} [Stage σ]

theorem update_of_error {widget : StockWidget} {method : String} {event : Event}
    {cause : WidgetError} (h : widget.respond method event = .error cause) (seconds : Float)
    (stage : σ) :
    Widget.update widget method event seconds stage =
      { result := .error (.widget cause), widget, stage } := by
  rw [update_eq, h]
  rfl

theorem update_of_ok {widget after : StockWidget} {method : String} {event : Event}
    {animation : Animation} (h : widget.respond method event = .ok (after, animation))
    (seconds : Float) (stage : σ) :
    Widget.update widget method event seconds stage =
      { result := .ok (), widget := after, stage := Stage.play stage [animation] seconds } := by
  rw [update_eq, h]
  rfl

theorem widget_update (widget : StockWidget) (method : String) (event : Event) (seconds : Float)
    (stage : σ) :
    (Widget.update widget method event seconds stage).widget = widget.react (method, event) := by
  cases h : widget.respond method event with
  | error cause => rw [update_of_error h, react_of_error h]
  | ok response => rw [update_of_ok h, react_of_ok h]

end StockWidget

structure Answer where
  trial : Trial
  result : Except RefusalReason Animation

namespace Answer

def attempt (a : Answer) : Attempt where
  trial := a.trial
  result := a.result.map fun _ => ()

def seconds (a : Answer) (tempo : Tempo) : Float :=
  a.trial.binding.duration?.getD (tempo.runTime a.trial.event.kind)

def op? (tempo : Tempo) (a : Answer) : Option StageOp :=
  match a.result with
  | .ok animation => some (.play [animation] (a.seconds tempo))
  | .error _ => none

end Answer

namespace Trial

def answer (t : Trial) (pool : Table StockWidget) :
    Except RefusalReason Animation × Table StockWidget :=
  match t.binding with
  | .malformed _ => (.error .malformed, pool)
  | .method name method _ =>
    match pool.get? name with
    | none => (.error (.noWidget name), pool)
    | some widget =>
      match widget.respond method t.event with
      | .error cause => (.error (.refused (.widget cause)), pool)
      | .ok (widget, animation) => (.ok animation, pool.insert name widget)

def answerAll : List Trial → Table StockWidget → List Answer × Table StockWidget
  | [], pool => ([], pool)
  | t :: rest, pool =>
    let first := t.answer pool
    let others := answerAll rest first.2
    ({ trial := t, result := first.1 } :: others.1, others.2)

theorem keys_answer (t : Trial) (pool : Table StockWidget) :
    (t.answer pool).2.keys = pool.keys := by
  obtain ⟨event, binding⟩ := t
  unfold answer
  cases binding with
  | malformed raw => rfl
  | method name method params =>
    dsimp only
    cases found : pool.get? name with
    | none => rfl
    | some widget =>
      cases response : widget.respond method event with
      | error cause => simp [response]
      | ok outcome =>
        simp only [response]
        apply Table.keys_insert
        exact Entries.mem_keys_of_get? found

theorem keys_answerAll (ts : List Trial) (pool : Table StockWidget) :
    (answerAll ts pool).2.keys = pool.keys := by
  induction ts generalizing pool with
  | nil => rfl
  | cons t rest ih => rw [answerAll, ih, keys_answer]

variable {σ : Type} [Stage σ]

theorem run_eq_answer (tempo : Tempo) (t : Trial) (e : Ensemble StockWidget σ) :
    let a : Answer := { trial := t, result := (t.answer e.widgets).1 }
    t.run tempo e.widgets.keys e =
      (a.attempt.result,
        { widgets := (t.answer e.widgets).2,
          stage := (a.op? tempo).toList.foldl Stage.perform e.stage }) := by
  obtain ⟨event, binding⟩ := t
  unfold run call answer
  cases binding with
  | malformed raw => rfl
  | method name method params =>
    dsimp only
    cases found : e.widgets.get? name with
    | none =>
      have missing : name ∉ e.widgets.keys := Entries.get?_eq_none_iff.mp found
      rw [if_neg missing]
      rfl
    | some widget =>
      have known : name ∈ e.widgets.keys := Entries.mem_keys_of_get? found
      rw [if_pos known]
      dsimp only [Ensemble.update]
      rw [found]
      dsimp only
      cases response : widget.respond method event with
      | error cause =>
        rw [StockWidget.update_of_error response, Table.insert_eq_self found]
        rfl
      | ok outcome =>
        rw [StockWidget.update_of_ok response]
        rfl

theorem runAll_eq_answerAll (tempo : Tempo) (ts : List Trial) (e : Ensemble StockWidget σ) :
    let answers := answerAll ts e.widgets
    runAll tempo e.widgets.keys ts e =
      (answers.1.map (·.attempt),
        { widgets := answers.2,
          stage := (answers.1.filterMap (·.op? tempo)).foldl Stage.perform e.stage }) := by
  induction ts generalizing e with
  | nil => rfl
  | cons t rest ih =>
    let first : Answer := { trial := t, result := (t.answer e.widgets).1 }
    let after : Ensemble StockWidget σ := {
      widgets := (t.answer e.widgets).2
      stage := (first.op? tempo).toList.foldl Stage.perform e.stage }
    have run : t.run tempo e.widgets.keys e = (first.attempt.result, after) := by
      apply run_eq_answer
    -- No trial changes the names in the pool, so the others are run with the same ones.
    have names : after.widgets.keys = e.widgets.keys := by apply keys_answer
    have others := ih after
    rw [names] at others
    dsimp only [runAll, answerAll]
    rw [run, others, List.filterMap_cons]
    cases shown : first.op? tempo with
    | none => simp [shown, after, first, Answer.attempt]
    | some op => simp [shown, after, first, Answer.attempt]

end Trial

/--
Playing events with stock widgets comes down to their answers: they become the pool, what went wrong
is written down, and their animations are played in order.
-/
theorem Router.foldl_dispatch_eq_answers {σ : Type} [Stage σ] (events : List Event)
    (r : Router StockWidget σ) :
    let answers := Trial.answerAll (r.engine.routing.trials events) r.engine.widgets
    let attempts := answers.1.map (·.attempt)
    events.foldl dispatch r =
      { engine := { r.engine with widgets := answers.2 }
        stage := (answers.1.filterMap (·.op? r.engine.tempo)).foldl Stage.perform r.stage
        failures := r.failures ++ attempts.filterMap (·.failure?)
        delivered := r.delivered + attempts.countP (·.isDelivered) } := by
  intro answers attempts
  have history :=
    Trial.runAll_eq_answerAll r.engine.tempo (r.engine.routing.trials events) r.ensemble
  rw [foldl_dispatch]
  unfold Engine.widgetNames
  rw [show r.engine.widgets = r.ensemble.widgets from rfl, history]
  rfl

end Stagecraft
