import Stagecraft.Router
import Stagecraft.Table.Lemmas

/-!
This module contains the rule by which events are delivered, apart from the router. The bindings for
some events make one flat list of trials, and the names in the pool decide which of them become
calls of a widget. Routers keep to the rule: `Router.foldl_dispatch`.
-/

namespace Stagecraft

/--
A binding that is to be tried for an event.
-/
structure Trial where
  event : Event
  binding : Binding

/--
What is to be tried for some events: one event after the other, and for each of them the bindings
for its kind.
-/
def Routing.trials (r : Routing) (events : List Event) : List Trial :=
  events.flatMap fun event => ((r.bindings? event.kind).getD []).map fun binding =>
    { event, binding }

theorem Routing.trials_append (r : Routing) (first second : List Event) :
    r.trials (first ++ second) = r.trials first ++ r.trials second := by
  unfold trials
  apply List.flatMap_append

structure Call where
  widget : String
  method : String
  event : Event
  seconds : Float

/--
The widgets, and the stage that they act on.
-/
structure Ensemble (ω σ : Type) where
  widgets : Table ω
  stage : σ

structure Attempt where
  trial : Trial
  result : Except RefusalReason Unit

namespace Attempt

def isDelivered (a : Attempt) : Bool := a.result.isOk

def failure? (a : Attempt) : Option RoutingFailure :=
  match a.result with
  | .ok () => none
  | .error reason =>
    some {
      step := a.trial.event.step, kind := a.trial.event.kind,
      binding := a.trial.binding.label, reason }

end Attempt

namespace Trial

def call (tempo : Tempo) (names : List String) (t : Trial) : Except RefusalReason Call :=
  match t.binding with
  | .malformed _ => .error .malformed
  | .method widget method _ =>
    if widget ∈ names then
      let seconds := t.binding.duration?.getD (tempo.runTime t.event.kind)
      .ok { widget, method, event := t.event, seconds }
    else
      .error (.noWidget widget)

end Trial

variable {ω σ : Type} [Widget ω] [Stage σ]

/--
Makes a call. The widget and the stage stay as the widget leaves them, whether or not it fails.
-/
def Ensemble.update (e : Ensemble ω σ) (call : Call) :
    Except RefusalReason Unit × Ensemble ω σ :=
  match e.widgets.get? call.widget with
  | none => (.error (.noWidget call.widget), e)
  | some widget =>
    let reaction := Widget.update widget call.method call.event call.seconds e.stage
    (reaction.result.mapError .refused,
      { widgets := e.widgets.insert call.widget reaction.widget, stage := reaction.stage })

namespace Trial

def run (tempo : Tempo) (names : List String) (t : Trial) (e : Ensemble ω σ) :
    Except RefusalReason Unit × Ensemble ω σ :=
  match t.call tempo names with
  | .error reason => (.error reason, e)
  | .ok call => e.update call

def runAll (tempo : Tempo) (names : List String) :
    List Trial → Ensemble ω σ → List Attempt × Ensemble ω σ
  | [], e => ([], e)
  | t :: rest, e =>
    let first := t.run tempo names e
    let others := runAll tempo names rest first.2
    ({ trial := t, result := first.1 } :: others.1, others.2)

theorem runAll_append (tempo : Tempo) (names : List String) (ts us : List Trial)
    (e : Ensemble ω σ) :
    runAll tempo names (ts ++ us) e =
      ((runAll tempo names ts e).1 ++ (runAll tempo names us (runAll tempo names ts e).2).1,
        (runAll tempo names us (runAll tempo names ts e).2).2) := by
  induction ts generalizing e with
  | nil => rfl
  | cons t rest ih => simp only [List.cons_append, runAll, ih]

theorem map_trial_runAll (tempo : Tempo) (names : List String) (ts : List Trial)
    (e : Ensemble ω σ) : (runAll tempo names ts e).1.map (·.trial) = ts := by
  induction ts generalizing e with
  | nil => rfl
  | cons t rest ih => simp only [runAll, List.map_cons, ih]

end Trial

theorem Ensemble.keys_update (e : Ensemble ω σ) (call : Call) :
    (e.update call).2.widgets.keys = e.widgets.keys := by
  unfold update
  split
  · rfl
  next widget found =>
    apply Table.keys_insert
    exact Entries.mem_keys_of_get? found

theorem Trial.keys_run (tempo : Tempo) (names : List String) (t : Trial) (e : Ensemble ω σ) :
    (t.run tempo names e).2.widgets.keys = e.widgets.keys := by
  unfold run
  split
  · rfl
  · apply Ensemble.keys_update

theorem Trial.keys_runAll (tempo : Tempo) (names : List String) (ts : List Trial)
    (e : Ensemble ω σ) : (runAll tempo names ts e).2.widgets.keys = e.widgets.keys := by
  induction ts generalizing e with
  | nil => rfl
  | cons t rest ih => rw [runAll, ih, keys_run]

theorem Attempt.isSome_failure? (a : Attempt) : a.failure?.isSome = !a.isDelivered := by
  obtain ⟨t, result⟩ := a
  cases result with
  | ok => rfl
  | error => rfl

theorem Attempt.countP_add_length_filterMap (attempts : List Attempt) :
    attempts.countP (·.isDelivered) + (attempts.filterMap (·.failure?)).length =
      attempts.length := by
  rw [List.length_filterMap_eq_countP]
  simp only [isSome_failure?]
  rw [List.length_eq_countP_add_countP (·.isDelivered)]
  simp

namespace Router

def ensemble (r : Router ω σ) : Ensemble ω σ := { widgets := r.engine.widgets, stage := r.stage }

def follow (r : Router ω σ) (history : List Attempt × Ensemble ω σ) : Router ω σ where
  engine := { r.engine with widgets := history.2.widgets }
  stage := history.2.stage
  failures := r.failures ++ history.1.filterMap (·.failure?)
  delivered := r.delivered + history.1.countP (·.isDelivered)

omit [Widget ω] [Stage σ] in
theorem follow_follow (r : Router ω σ) (first second : List Attempt × Ensemble ω σ) :
    (r.follow first).follow second = r.follow (first.1 ++ second.1, second.2) := by
  unfold follow
  rw [List.filterMap_append, List.countP_append, List.append_assoc, Nat.add_assoc]

theorem follow_runAll_nil (tempo : Tempo) (r : Router ω σ) :
    r.follow (Trial.runAll tempo r.engine.widgetNames [] r.ensemble) = r := by
  simp [Trial.runAll, follow, ensemble]

theorem follow_runAll_append (tempo : Tempo) (ts us : List Trial) (r next : Router ω σ)
    (h : r.follow (Trial.runAll tempo r.engine.widgetNames ts r.ensemble) = next) :
    next.follow (Trial.runAll tempo next.engine.widgetNames us next.ensemble) =
      r.follow (Trial.runAll tempo r.engine.widgetNames (ts ++ us) r.ensemble) := by
  -- No trial changes the names in the pool, so the second part is run with the same ones.
  have names : next.engine.widgetNames = r.engine.widgetNames := by
    rw [← h]
    apply Trial.keys_runAll
  rw [names, Trial.runAll_append, ← h, follow_follow]
  rfl

theorem attempt_eq (tempo : Tempo) (event : Event) (r : Router ω σ) (binding : Binding) :
    let t : Trial := { event, binding }
    attempt event (tempo.runTime event.kind) r binding =
      ((t.run tempo r.engine.widgetNames r.ensemble).1,
        r.follow ([], (t.run tempo r.engine.widgetNames r.ensemble).2)) := by
  unfold attempt Trial.run Trial.call
  cases binding with
  | malformed raw => simp [follow, ensemble]
  | method name method params =>
    cases found : r.engine.widgets.get? name with
    | none =>
      have : name ∉ r.engine.widgetNames := Entries.get?_eq_none_iff.mp found
      simp [this, found, follow, ensemble]
    | some widget =>
      have : name ∈ r.engine.widgetNames := Entries.mem_keys_of_get? found
      simp [this, found, follow, ensemble, Ensemble.update]

/--
The router as it will be when the successes so far are added to its total.
-/
def settled (progress : Nat × Router ω σ) : Router ω σ :=
  { progress.2 with delivered := progress.2.delivered + progress.1 }

theorem settled_deliver (tempo : Tempo) (event : Event) (progress : Nat × Router ω σ)
    (binding : Binding) :
    settled (deliver event (tempo.runTime event.kind) progress binding) =
      (settled progress).follow (Trial.runAll tempo progress.2.engine.widgetNames
        [{ event, binding }] progress.2.ensemble) := by
  obtain ⟨succeeded, r⟩ := progress
  unfold deliver
  dsimp only
  rw [attempt_eq]
  dsimp only [Trial.runAll]
  generalize Trial.run tempo r.engine.widgetNames { event, binding } r.ensemble = outcome
  obtain ⟨result, e⟩ := outcome
  cases result with
  | ok =>
    simp [settled, follow, Attempt.failure?, Attempt.isDelivered, Except.isOk, Except.toBool,
      Nat.add_assoc]
  | error =>
    simp [settled, follow, Attempt.failure?, Attempt.isDelivered, Except.isOk, Except.toBool]

theorem settled_foldl_deliver (tempo : Tempo) (event : Event) (bindings : List Binding)
    (progress : Nat × Router ω σ) :
    settled (bindings.foldl (deliver event (tempo.runTime event.kind)) progress) =
      (settled progress).follow (Trial.runAll tempo progress.2.engine.widgetNames
        (bindings.map fun binding => { event, binding }) progress.2.ensemble) := by
  induction bindings generalizing progress with
  | nil => exact (follow_runAll_nil tempo (settled progress)).symm
  | cons binding rest ih =>
    rw [List.foldl_cons, ih, List.map_cons]
    apply follow_runAll_append tempo [{ event, binding }] _ (settled progress)
    exact (settled_deliver tempo event progress binding).symm

/--
The total is not touched before all bindings have been tried.
-/
theorem delivered_foldl_deliver (tempo : Tempo) (event : Event) (bindings : List Binding)
    (progress : Nat × Router ω σ) :
    (bindings.foldl (deliver event (tempo.runTime event.kind)) progress).2.delivered =
      progress.2.delivered := by
  induction bindings generalizing progress with
  | nil => rfl
  | cons binding rest ih =>
    obtain ⟨succeeded, r⟩ := progress
    rw [List.foldl_cons, ih, deliver, attempt_eq]
    dsimp only
    generalize Trial.run tempo r.engine.widgetNames { event, binding } r.ensemble = outcome
    obtain ⟨result, e⟩ := outcome
    cases result with
    | ok => rfl
    | error => rfl

theorem route_eq (r : Router ω σ) (event : Event) :
    let history := Trial.runAll r.engine.tempo r.engine.widgetNames
      (r.engine.routing.trials [event]) r.ensemble
    r.route event = (history.1.countP (·.isDelivered), r.follow history) := by
  intro history
  have trials : r.engine.routing.trials [event] =
      ((r.engine.routing.bindings? event.kind).getD []).map fun binding => { event, binding } :=
    List.flatMap_singleton _ _
  unfold route
  cases bound : r.engine.routing.bindings? event.kind with
  | none =>
    have none : history = ([], r.ensemble) := by
      simp only [history, trials, bound]
      rfl
    simp [none, follow, ensemble]
  | some bindings =>
    have total := delivered_foldl_deliver r.engine.tempo event bindings (0, r)
    have all := settled_foldl_deliver r.engine.tempo event bindings (0, r)
    have tried : bindings.map (fun binding => { event, binding }) =
        r.engine.routing.trials [event] := by
      rw [trials, bound, Option.getD_some]
    rw [tried] at all
    have count := congrArg Router.delivered all
    change _ + _ = r.delivered + _ at count
    rw [total] at count
    exact Prod.ext (Nat.add_left_cancel count) all

theorem dispatch_eq (r : Router ω σ) (event : Event) :
    r.dispatch event =
      r.follow (Trial.runAll r.engine.tempo r.engine.widgetNames
        (r.engine.routing.trials [event]) r.ensemble) := by
  unfold dispatch
  rw [route_eq]

theorem foldl_dispatch (events : List Event) (r : Router ω σ) :
    events.foldl dispatch r =
      r.follow (Trial.runAll r.engine.tempo r.engine.widgetNames
        (r.engine.routing.trials events) r.ensemble) := by
  induction events generalizing r with
  | nil => exact (follow_runAll_nil r.engine.tempo r).symm
  | cons event rest ih =>
    -- A dispatch changes neither the tempo nor the routing.
    have routing : (r.dispatch event).engine.routing = r.engine.routing := by rw [dispatch_eq]; rfl
    have tempo : (r.dispatch event).engine.tempo = r.engine.tempo := by rw [dispatch_eq]; rfl
    have trials : r.engine.routing.trials (event :: rest) =
        r.engine.routing.trials [event] ++ r.engine.routing.trials rest :=
      Routing.trials_append _ [event] rest
    rw [List.foldl_cons, ih, routing, tempo, trials]
    apply follow_runAll_append
    rw [dispatch_eq]

end Router

end Stagecraft
