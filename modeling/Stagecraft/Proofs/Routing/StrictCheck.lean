import Stagecraft.Proofs.Engine.Build
import Stagecraft.Proofs.Playback.Trial
import Stagecraft.Proofs.Routing.Target
import Stagecraft.Stage.Rehearsal

/-!
This module contains the strict check of the bindings of an engine, and that it agrees with what
happens without it: the bindings that it objects to are those that cannot be delivered whatever the
widgets do, because they name no method.
-/

namespace Stagecraft

namespace Binding

def raw? : Binding → Option String
  | .method .. => none
  | .malformed raw => some raw

theorem raw?_eq_some_iff {binding : Binding} {raw : String} :
    binding.raw? = some raw ↔ binding = .malformed raw := by
  cases binding with
  | method => simp [raw?]
  | malformed other => simp [raw?]

theorem isMalformed_iff {binding : Binding} :
    binding.isMalformed = true ↔ ∃ raw, binding = .malformed raw := by
  cases binding with
  | method => simp [isMalformed]
  | malformed raw => simp [isMalformed]

end Binding

namespace Routing

/--
A list of the targets that name no method, each with the kind of event it is for: the kinds in their
order, and for each of them the targets as they were declared, no less and no more often.
-/
structure Lists (r : Routing) (listed : List (String × String)) : Prop where
  kinds : (listed.map (·.1)).Pairwise (· ≤ ·)
  targets (kind : String) :
    (listed.filter (·.1 = kind)).map (·.2) = ((r.bindings? kind).getD []).filterMap (·.raw?)

theorem Lists.mem_iff {r : Routing} {listed : List (String × String)} (h : r.Lists listed)
    {kind raw : String} :
    (kind, raw) ∈ listed ↔ Binding.malformed raw ∈ (r.bindings? kind).getD [] := by
  have mem : raw ∈ (listed.filter (·.1 = kind)).map (·.2) ↔ (kind, raw) ∈ listed := by simp
  rw [← mem, h.targets, List.mem_filterMap]
  simp only [Binding.raw?_eq_some_iff, exists_eq_right]

theorem forall_malformed_ofSpecs {specs : Table (List BindingSpec)} :
    (∀ kind target, .malformed target ∉ ((ofSpecs specs).bindings? kind).getD []) ↔
      ∀ kind declared, specs.get? kind = some declared →
        ∀ binding ∈ declared, ∃ widget method, Binding.Names binding.target widget method := by
  unfold bindings? ofSpecs
  simp only [Entries.get?_map, ← Binding.isMalformed_parse_iff]
  constructor
  · intro none kind declared known binding mem
    cases made : (Binding.parse binding).isMalformed with
    | false => rfl
    | true =>
      obtain ⟨target, malformed⟩ := Binding.isMalformed_iff.mp made
      refine absurd ?_ (none kind target)
      rw [known, ← malformed]
      exact List.mem_map_of_mem mem
  · intro named kind target mem
    cases known : specs.get? kind with
    | none =>
      rw [known] at mem
      cases mem
    | some declared =>
      rw [known] at mem
      obtain ⟨binding, mem, malformed⟩ := List.mem_map.mp mem
      have := named kind declared known binding mem
      rw [malformed] at this
      cases this

theorem map_label_malformed (r : Routing) :
    (r.malformed.map fun pair => (pair.1, pair.2.label)) =
      r.routes.toList.flatMap fun pair => (pair.2.filterMap (·.raw?)).map (pair.1, ·) := by
  unfold malformed bindings
  rw [List.filter_flatMap, List.map_flatMap]
  congr 1
  funext pair
  obtain ⟨kind, declared⟩ := pair
  induction declared with
  | nil => rfl
  | cons binding rest ih =>
    cases binding with
    | method widget method params => exact ih
    | malformed raw => exact congrArg ((kind, raw) :: ·) ih

theorem lists_malformed (r : Routing) :
    r.Lists (r.malformed.map fun pair => (pair.1, pair.2.label)) := by
  rw [map_label_malformed]
  refine ⟨?_, ?_⟩
  · exact r.routes.pairwise_flatMap (·.filterMap (·.raw?))
  · intro kind
    rw [Entries.map_filter_flatMap]
    unfold bindings?
    cases r.routes.get? kind with
    | none => rfl
    | some declared => rfl

end Routing

variable {ω σ : Type} [Widget ω] [Stage σ]

theorem Ensemble.update_ne_malformed (e : Ensemble ω σ) (call : Call) :
    (e.update call).1 ≠ .error .malformed := by
  unfold update
  split
  · simp
  next widget _ =>
    dsimp only
    cases (Widget.update widget call.method call.event call.seconds e.stage).result with
    | ok =>
      intro same
      cases same
    | error =>
      intro same
      cases same

namespace Trial

theorem run_eq_malformed_iff (tempo : Tempo) (names : List String) (t : Trial)
    (e : Ensemble ω σ) :
    (t.run tempo names e).1 = .error .malformed ↔ t.binding.isMalformed = true := by
  obtain ⟨event, binding⟩ := t
  unfold run call
  cases binding with
  | malformed raw => simp [Binding.isMalformed]
  | method widget method params =>
    dsimp only [Binding.isMalformed]
    by_cases known : widget ∈ names
    · simp [known, Ensemble.update_ne_malformed]
    · simp [known]

theorem result_eq_malformed_iff {tempo : Tempo} {names : List String} {ts : List Trial}
    {e : Ensemble ω σ} {a : Attempt} (mem : a ∈ (runAll tempo names ts e).1) :
    a.result = .error .malformed ↔ a.trial.binding.isMalformed = true := by
  induction ts generalizing e with
  | nil => cases mem
  | cons t rest ih =>
    cases List.mem_cons.mp mem with
    | inl first =>
      rw [first]
      apply run_eq_malformed_iff
    | inr others => exact ih others

theorem mem_trials_iff {r : Routing} {events : List Event} {t : Trial} :
    t ∈ r.trials events ↔
      t.event ∈ events ∧ t.binding ∈ (r.bindings? t.event.kind).getD [] := by
  unfold Routing.trials
  simp only [List.mem_flatMap, List.mem_map]
  constructor
  · rintro ⟨event, mem, binding, declared, rfl⟩
    exact ⟨mem, declared⟩
  · rintro ⟨mem, declared⟩
    exact ⟨t.event, mem, t.binding, declared, rfl⟩

end Trial

theorem Attempt.failure?_eq_malformed_iff {a : Attempt} {f : RoutingFailure} :
    a.failure? = some f ∧ f.reason = .malformed ↔
      a.result = .error .malformed ∧
        f = {
          step := a.trial.event.step, kind := a.trial.event.kind
          binding := a.trial.binding.label, reason := .malformed } := by
  obtain ⟨t, result⟩ := a
  unfold failure?
  cases result with
  | ok => simp
  | error reason =>
    simp only [Option.some.injEq, Except.error.injEq]
    constructor
    · rintro ⟨rfl, rfl⟩
      exact ⟨rfl, rfl⟩
    · rintro ⟨rfl, rfl⟩
      exact ⟨rfl, rfl⟩

namespace Router

/--
Among the failures of a router are those for bindings that name no method: one of these for each
event that there is such a binding for, and no other.
-/
theorem mem_failures_foldl_dispatch {events : List Event} {r : Router ω σ} (fresh : r.failures = [])
    {f : RoutingFailure} :
    f ∈ (events.foldl dispatch r).failures ∧ f.reason = .malformed ↔
      ∃ event ∈ events, ∃ target,
        .malformed target ∈ (r.engine.routing.bindings? event.kind).getD [] ∧
        f = {
          step := event.step, kind := event.kind, binding := target, reason := .malformed } := by
  rw [foldl_dispatch]
  unfold follow
  dsimp only
  rw [fresh, List.nil_append]
  constructor
  · rintro ⟨mem, reason⟩
    obtain ⟨a, tried, failed⟩ := List.mem_filterMap.mp mem
    obtain ⟨result, rfl⟩ := Attempt.failure?_eq_malformed_iff.mp ⟨failed, reason⟩
    have trial : a.trial ∈ r.engine.routing.trials events := by
      rw [← Trial.map_trial_runAll r.engine.tempo r.engine.widgetNames
        (r.engine.routing.trials events) r.ensemble]
      exact List.mem_map_of_mem tried
    obtain ⟨mem, declared⟩ := Trial.mem_trials_iff.mp trial
    rw [Trial.result_eq_malformed_iff tried, Binding.isMalformed_iff] at result
    obtain ⟨target, malformed⟩ := result
    rw [malformed] at declared
    refine ⟨a.trial.event, mem, target, declared, ?_⟩
    rw [malformed]
    rfl
  · rintro ⟨event, mem, target, declared, rfl⟩
    have trial : { event, binding := .malformed target } ∈ r.engine.routing.trials events :=
      Trial.mem_trials_iff.mpr ⟨mem, declared⟩
    rw [← Trial.map_trial_runAll r.engine.tempo r.engine.widgetNames
      (r.engine.routing.trials events) r.ensemble] at trial
    obtain ⟨a, tried, same⟩ := List.mem_map.mp trial
    have result : a.result = .error .malformed := by
      rw [Trial.result_eq_malformed_iff tried, same]
      rfl
    have failed := Attempt.failure?_eq_malformed_iff.mpr ⟨result, rfl⟩
    rw [same] at failed
    exact ⟨List.mem_filterMap.mpr ⟨a, tried, failed.1⟩, rfl⟩

end Router

namespace Engine

omit [Widget ω] in
theorem validateBindings_eq (engine : Engine ω) :
    let listed := engine.routing.malformed.map fun pair => (pair.1, pair.2.label)
    engine.validateBindings =
      if listed = [] then .ok () else .error (.config (.malformedBindings listed)) := by
  unfold validateBindings
  cases engine.routing.malformed with
  | nil => rfl
  | cons => rfl

omit [Widget ω] in
theorem validateBindings_eq_ok_iff {engine : Engine ω} :
    engine.validateBindings = .ok () ↔
      ∀ kind target, .malformed target ∉ (engine.routing.bindings? kind).getD [] := by
  rw [validateBindings_eq]
  have mem := @engine.routing.lists_malformed.mem_iff
  generalize (engine.routing.malformed.map fun pair => (pair.1, pair.2.label)) = listed at mem
  simp only [← mem]
  split
  next empty => simp [empty]
  next flawed =>
    obtain ⟨pair, mem⟩ := List.exists_mem_of_ne_nil listed flawed
    simp only [reduceCtorEq, false_iff]
    intro none
    exact none pair.1 pair.2 mem

/--
Before anything is played, the strict check finds just those bindings that are going to be passed
over because they name no method. It accepts an engine if no events lead to such a failure, and else
lists the bindings, each of which fails for every event of its kind. A scene as it is declared
passes if all of its targets name methods.
-/
theorem validateBindings_iff_failures (engine : Engine ω) (stage : σ) :
    (engine.validateBindings = .ok () ↔
      ∀ events : List Event,
        ∀ f ∈ (events.foldl Router.dispatch ({ engine, stage } : Router ω σ)).failures,
          f.reason ≠ .malformed) ∧
    (∀ error, engine.validateBindings = .error error →
      ∃ listed, error = .config (.malformedBindings listed) ∧ engine.routing.Lists listed ∧
        error.message = "config error: malformed event bindings: " ++
          String.intercalate ", " (listed.map fun (kind, target) =>
            kind ++ ": `" ++ target ++ "`") ∧
        ∀ kind target, (kind, target) ∈ listed → ∀ event : Event, event.kind = kind →
          ∃ f ∈ (Router.dispatch ({ engine, stage } : Router ω σ) event).failures,
            f.binding = target ∧ f.kind = kind ∧ f.step = event.step ∧ f.reason = .malformed) ∧
    ∀ factory spec timing, build factory spec timing = .ok engine →
      (engine.validateBindings = .ok () ↔
        ∀ kind specs, spec.eventBindings.get? kind = some specs →
          ∀ binding ∈ specs, ∃ widget method, Binding.Names binding.target widget method) := by
  refine ⟨?_, ?_, ?_⟩
  · rw [validateBindings_eq_ok_iff]
    constructor
    · intro none events f mem malformed
      obtain ⟨event, _, target, declared, _⟩ :=
        (Router.mem_failures_foldl_dispatch rfl).mp ⟨mem, malformed⟩
      exact none event.kind target declared
    · intro none kind target declared
      obtain ⟨mem, malformed⟩ :=
        (Router.mem_failures_foldl_dispatch (r := ({ engine, stage } : Router ω σ)) rfl).mpr
          ⟨{ kind }, List.mem_singleton_self _, target, declared, rfl⟩
      exact none [{ kind }] _ mem malformed
  · intro error refused
    rw [validateBindings_eq] at refused
    split at refused
    · cases refused
    · cases refused
      refine ⟨_, rfl, engine.routing.lists_malformed, rfl, ?_⟩
      intro kind target mem event same
      rw [engine.routing.lists_malformed.mem_iff, ← same] at mem
      obtain ⟨logged, reason⟩ :=
        (Router.mem_failures_foldl_dispatch (r := ({ engine, stage } : Router ω σ)) rfl).mpr
          ⟨event, List.mem_singleton_self event, target, mem, rfl⟩
      exact ⟨_, logged, rfl, same, rfl, reason⟩
  · intro factory spec timing built
    rw [validateBindings_eq_ok_iff, routing_build built, Routing.forall_malformed_ofSpecs]

/--
Two of three targets name no method, one of them for a kind of event that comes first.
-/
theorem validateBindings_of_two_malformed :
    let spec : SceneSpec := {
      name := "maze", algorithm := "bfs", widgets := .ofList [("steps", { kind := "counter" })]
      eventBindings := .ofList [
        ("visit", [.bare "steps.onEvent", .bare "steps"]), ("enqueue", [.bare ".onEvent"])] }
    let event : Event := { kind := "visit", step := 3 }
    ∃ engine, build .stock spec {} = .ok engine ∧
      engine.validateBindings =
        .error (.config (.malformedBindings [("enqueue", ".onEvent"), ("visit", "steps")])) ∧
      (∃ f ∈ (Router.dispatch ({ engine, stage := {} } : Router StockWidget Rehearsal)
          event).failures, f.binding = "steps" ∧ f.step = 3 ∧ f.reason = .malformed) ∧
      ¬ ∀ kind specs, spec.eventBindings.get? kind = some specs →
        ∀ binding ∈ specs, ∃ widget method, Binding.Names binding.target widget method := by
  intro spec event
  let engine : Engine StockWidget := {
    name := "maze", algorithm := "bfs"
    widgets := .ofList [("steps", .counter { name := "steps" })]
    routing := .ofSpecs spec.eventBindings, tempo := { timing := {}, factor := 1.0 } }
  have built : build .stock spec {} = .ok engine := rfl
  have refused : engine.validateBindings =
      .error (.config (.malformedBindings [("enqueue", ".onEvent"), ("visit", "steps")])) := rfl
  obtain ⟨_, fails, declared⟩ := validateBindings_iff_failures engine ({} : Rehearsal)
  obtain ⟨listed, same, _, _, logged⟩ := fails _ refused
  cases same
  obtain ⟨f, mem, target, _, step, reason⟩ := logged "visit" "steps" (by simp) event rfl
  refine ⟨engine, built, refused, ⟨f, mem, target, step, reason⟩, ?_⟩
  rw [← declared .stock spec {} built, refused]
  simp

end Engine

end Stagecraft
