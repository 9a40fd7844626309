import Stagecraft.Proofs.Action.Effect
import Stagecraft.Proofs.Director.Recast
import Stagecraft.Proofs.Engine.Build
import Stagecraft.Proofs.Playback.Pruned
import Stagecraft.Proofs.Routing.Declaration
import Stagecraft.Stage.Rehearsal

/-!
This module compares the runs of a scene with those of its pruned form, which has no bindings that
cannot reach a widget. The two go through the same steps. All that differs is the routing, and the
failures that the bindings cost that were left out.
-/

namespace Stagecraft

namespace SceneSpec

/--
Whether a target names a method of a widget that the scene declares.
-/
def links (spec : SceneSpec) (target : String) : Bool :=
  match Binding.parts? target with
  | some (widget, _) => spec.widgets.contains widget
  | none => false

/--
A scene without the bindings that cannot reach a widget. A kind of events that has none left may
stay or not.
-/
structure Prunes (spec pruned : SceneSpec) : Prop where
  name : pruned.name = spec.name
  algorithm : pruned.algorithm = spec.algorithm
  widgets : pruned.widgets = spec.widgets
  bindings (kind : String) :
    (pruned.eventBindings.get? kind).getD [] =
      ((spec.eventBindings.get? kind).getD []).filter (spec.links ·.target)

theorem links_eq_isLinked (spec : SceneSpec) (binding : BindingSpec) :
    spec.links binding.target = (Binding.parse binding).isLinked spec.widgets.keys := by
  unfold links Binding.parse
  cases Binding.parts? binding.target with
  | none => rfl
  | some parts =>
    dsimp only [Binding.isLinked, Entries.contains]
    rw [Bool.eq_iff_iff, decide_eq_true_iff, ← Option.ne_none_iff_isSome, Ne,
      Entries.get?_eq_none_iff, not_not]

theorem Prunes.routing {spec pruned : SceneSpec} (h : spec.Prunes pruned) :
    (Routing.ofSpecs spec.eventBindings).Prunes spec.widgets.keys spec.links
      (.ofSpecs pruned.eventBindings) where
  linked kind binding mem := by
    rw [Routing.getD_bindings?_ofSpecs] at mem
    obtain ⟨declared, _, rfl⟩ := List.mem_map.mp mem
    rw [Binding.label_parse, links_eq_isLinked]
  bindings kind := by
    rw [Routing.getD_bindings?_ofSpecs, Routing.getD_bindings?_ofSpecs, h.bindings, List.filter_map]
    congr 2
    funext binding
    rw [Function.comp_apply, Binding.label_parse]

end SceneSpec

section Prune

variable {ω : Type}

def Engine.reroute (routing : Routing) (engine : Engine ω) : Engine ω := { engine with routing }

theorem Engine.lookalike_reroute (routing : Routing) :
    Lookalike (reroute routing : Engine ω → Engine ω) :=
  ⟨fun _ => rfl, fun _ => rfl, fun _ => rfl⟩

/--
What there is with another routing, and without the failures of the bindings that are not `kept`.
-/
def Context.prune (routing : Routing) (kept : String → Bool) (context : Context ω) : Context ω :=
  { context with
    engine := context.engine.map (Engine.reroute routing)
    failures := context.failures.filter (kept ·.binding) }

theorem Context.recast_prune (routing : Routing) (kept : String → Bool) (context : Context ω) :
    context.Recast (Engine.reroute routing) (context.prune routing kept) :=
  ⟨rfl, rfl, rfl⟩

/--
A scene that is played has this routing and widgets of these names.
-/
def Context.Hosts (routing : Routing) (names : List String) (context : Context ω) : Prop :=
  ∀ engine, context.engine = some engine →
    engine.routing = routing ∧ engine.widgetNames = names

end Prune

namespace Cue

variable {routing pruned : Routing} {names : List String} {kept : String → Bool}

theorem ops_reroute (h : routing.Prunes names kept pruned) {builtin : Builtin} {args : Args}
    {context : Context StockWidget} {cue : Cue StockWidget} (hosts : context.Hosts routing names)
    (ready : Ready args context builtin cue) (seconds : Float) :
    (cue.mapEngine (Engine.reroute pruned)).ops seconds = cue.ops seconds := by
  cases ready with
  | playEvents engine known events limit =>
    obtain ⟨rfl, rfl⟩ := hosts engine known
    apply h.filterMap_op?
  | _ => rfl

theorem after_prune (h : routing.Prunes names kept pruned) {builtin : Builtin} {args : Args}
    {context : Context StockWidget} {cue : Cue StockWidget} (hosts : context.Hosts routing names)
    (ready : Ready args context builtin cue) :
    (cue.mapEngine (Engine.reroute pruned)).after (context.prune pruned kept) =
      (cue.after context).prune pruned kept := by
  cases ready with
  | playEvents engine known events limit =>
    obtain ⟨rfl, rfl⟩ := hosts engine known
    have failures := h.filterMap_failure? (taken events limit)
    have answered := h.answerAll_trials (taken events limit)
    have pool := congrArg Prod.snd answered
    dsimp only [mapEngine, after, Context.prune, Engine.reroute, answers]
    rw [failures, pool, List.filter_append]
    rfl
  | _ => rfl

theorem hosts_after {builtin : Builtin} {args : Args} {context : Context StockWidget}
    {cue : Cue StockWidget} (hosts : context.Hosts routing names)
    (ready : Ready args context builtin cue) : (cue.after context).Hosts routing names := by
  cases ready with
  | playEvents engine known events limit =>
    obtain ⟨same, named⟩ := hosts engine known
    intro last left
    cases left
    refine ⟨same, ?_⟩
    rw [← named]
    apply Trial.keys_answerAll
  | _ => exact hosts

end Cue

section Run

variable {σ : Type} [Stage σ] {routing pruned : Routing} {names : List String}
  {kept : String → Bool}

def Performance.prune (routing : Routing) (kept : String → Bool) (p : Performance StockWidget σ) :
    Performance StockWidget σ :=
  { p with context := p.context.prune routing kept }

def Progress.prune (routing : Routing) (kept : String → Bool) (s : Progress StockWidget σ) :
    Progress StockWidget σ :=
  { s with performance := s.performance.prune routing kept }

theorem Cue.perform_prune (h : routing.Prunes names kept pruned) {builtin : Builtin} {args : Args}
    {p : Performance StockWidget σ} {cue : Cue StockWidget} (hosts : p.context.Hosts routing names)
    (ready : Ready args p.context builtin cue) (seconds : Float) :
    (cue.mapEngine (Engine.reroute pruned)).perform seconds (p.prune pruned kept) =
      (cue.perform seconds p).prune pruned kept := by
  rw [perform_eq, perform_eq, ops_reroute h hosts ready]
  unfold Performance.prune
  rw [← after_prune h hosts ready]

namespace Progress

/--
A beat is played in the pruned scene as it is in the whole one.
-/
theorem play_prune (h : routing.Prunes names kept pruned) {s : Progress StockWidget σ}
    (hosts : s.performance.context.Hosts routing names) (beat : Beat) :
    (s.prune pruned kept).play .builtins beat = (s.play .builtins beat).prune pruned kept := by
  cases stopped : s.error with
  | some error =>
    rw [play_of_stopped stopped, play_of_stopped (s := s.prune pruned kept) stopped]
  | none =>
    have recast := s.performance.context.recast_prune pruned kept
    have cue : beat.cue (s.prune pruned kept).performance.context = _ :=
      Beat.cue_recast (Engine.lookalike_reroute pruned) recast beat
    cases ready : beat.cue s.performance.context with
    | error error =>
      rw [ready] at cue
      rw [play_of_flaw stopped ready, play_of_flaw (s := s.prune pruned kept) stopped cue]
      rfl
    | ok made =>
      obtain ⟨builtin, _, _, shape⟩ := Beat.exists_ready_of_cue ready
      rw [ready] at cue
      have performed :=
        Cue.perform_prune h hosts shape (beat.seconds s.performance.context.tempo)
      rw [play_of_cue stopped ready, play_of_cue (s := s.prune pruned kept) stopped cue]
      unfold perform
      dsimp only [prune, Performance.prune, Context.prune] at performed ⊢
      rw [performed]

theorem hosts_play {s : Progress StockWidget σ}
    (hosts : s.performance.context.Hosts routing names) (beat : Beat) :
    (s.play .builtins beat).performance.context.Hosts routing names := by
  cases stopped : s.error with
  | some error =>
    rw [play_of_stopped stopped]
    exact hosts
  | none =>
    cases ready : beat.cue s.performance.context with
    | error error =>
      rw [play_of_flaw stopped ready]
      exact hosts
    | ok cue =>
      obtain ⟨builtin, _, _, shape⟩ := Beat.exists_ready_of_cue ready
      rw [play_of_cue stopped ready]
      dsimp only [perform]
      rw [Cue.perform_eq]
      exact Cue.hosts_after hosts shape

theorem foldl_play_prune (h : routing.Prunes names kept pruned) {s : Progress StockWidget σ}
    (hosts : s.performance.context.Hosts routing names) (beats : List Beat) :
    beats.foldl (play .builtins) (s.prune pruned kept) =
      (beats.foldl (play .builtins) s).prune pruned kept := by
  induction beats generalizing s with
  | nil => rfl
  | cons beat rest ih =>
    rw [List.foldl_cons, List.foldl_cons, play_prune h hosts]
    exact ih (hosts_play hosts beat)

end Progress

end Run

theorem Engine.map_reroute_build (factory : Factory StockWidget) {spec pruned : SceneSpec}
    (h : spec.Prunes pruned) (timing : Timing) :
    build factory pruned timing =
      (build factory spec timing).map (reroute (.ofSpecs pruned.eventBindings)) := by
  unfold build
  rw [h.name, h.algorithm, h.widgets]
  cases Tempo.ofTiming timing with
  | error => rfl
  | ok tempo =>
    dsimp only [bind, Except.bind]
    generalize spec.widgets.traverse _ = widgets
    cases widgets with
    | error => rfl
    | ok => rfl

namespace Director

/--
Bindings that cannot reach a widget have no effect but their failures. Without them a scene is made
as it is with them, but for the routing, and every run of it has the same result, the same record,
the same stage, and leaves the same widgets, variables and number of events; its failures are those
of the other bindings, in the same order.
-/
theorem run_builtins_of_prunes {spec pruned : SceneSpec} (h : spec.Prunes pruned)
    (timing : Timing) (storyboard : Storyboard) (adapter : Option Adapter) (scenario : Value)
    {σ : Type} [Stage σ] (stage : σ) :
    let routing := Routing.ofSpecs pruned.eventBindings
    Engine.build .stock pruned timing =
      (Engine.build .stock spec timing).map (Engine.reroute routing) ∧
    ∀ engine other, Engine.build .stock spec timing = .ok engine →
      Engine.build .stock pruned timing = .ok other →
        let outcome (engine : Engine StockWidget) :=
          let context := { Context.ofEngine engine with adapter, scenario }
          ({ storyboard, registry := .builtins } : Director StockWidget σ).run { context, stage }
        let whole := (outcome engine).2.2
        (outcome other).1 = (outcome engine).1 ∧
        (outcome other).2.1 = (outcome engine).2.1 ∧
        (outcome other).2.2 =
          { context := { whole.context with
              engine := whole.context.engine.map (Engine.reroute routing)
              failures := whole.context.failures.filter (spec.links ·.binding) }
            stage := whole.stage } := by
  intro routing
  have built := Engine.map_reroute_build .stock h timing
  refine ⟨built, ?_⟩
  intro engine other made also outcome whole
  obtain rfl : other = engine.reroute routing := by
    rw [made, also] at built
    exact Except.ok.inj built
  let start : Progress StockWidget σ := {
    performance := { context := { Context.ofEngine engine with adapter, scenario }, stage } }
  have hosts : start.performance.context.Hosts (.ofSpecs spec.eventBindings) spec.widgets.keys := by
    intro first known
    cases known
    exact ⟨Engine.routing_build made, Engine.widgetNames_build made⟩
  have played := Progress.foldl_play_prune h.routing hosts storyboard.beats
  have ran : outcome engine = _ := run_eq_progress .builtins storyboard start.performance
  have again : outcome (engine.reroute routing) = _ :=
    run_eq_progress .builtins storyboard (start.performance.prune routing spec.links)
  dsimp only [whole]
  rw [show ({ performance := start.performance.prune routing spec.links } : Progress _ _) =
    start.prune routing spec.links from rfl, played] at again
  rw [ran, again]
  exact ⟨rfl, rfl, rfl⟩

/--
A scene with a target that names no method, one of a widget that is not declared, and one that the
widget refuses. Of their failures only the last one is left in the pruned scene.
-/
theorem run_builtins_of_dangling_pruned :
    let whole : SceneSpec := {
      name := "maze", algorithm := "bfs", widgets := .ofList [("steps", { kind := "counter" })]
      eventBindings := .ofList [("enqueue", [.bare "steps"]),
        ("visit", [.bare "ghost.onEvent", .bare "steps.onPop", .bare "steps.onEvent"])] }
    let pruned : SceneSpec := { whole with
      eventBindings := .ofList [("visit", [.bare "steps.onPop", .bare "steps.onEvent"])] }
    let storyboard : Storyboard := {
      acts := [{ shots := [{ beats := [{ action := "play_events" }] }] }] }
    let script := Adapter.scripted (some [{ kind := "enqueue" }, { kind := "visit" }])
    let outcome (engine : Engine StockWidget) :=
      let context := { Context.ofEngine engine with adapter := some script }
      ({ storyboard, registry := .builtins } : Director StockWidget Rehearsal).run
        { context, stage := {} }
    whole.Prunes pruned ∧
    ∃ engine other, Engine.build .stock whole {} = .ok engine ∧
      Engine.build .stock pruned {} = .ok other ∧
      (outcome engine).2.2.context.failures.map (·.binding) =
        ["steps", "ghost.onEvent", "steps.onPop"] ∧
      (outcome other).2.2.context.failures.map (·.binding) = ["steps.onPop"] ∧
      (outcome engine).2.2.stage.ops.length = 1 ∧
      (outcome other).2.2.stage = (outcome engine).2.2.stage := by
  intro whole pruned storyboard script outcome
  have prunes : whole.Prunes pruned := by
    refine ⟨rfl, rfl, rfl, ?_⟩
    intro kind
    dsimp only [whole, pruned]
    rw [Table.get?_ofList, Table.get?_ofList]
    by_cases visit : kind = "visit"
    · subst visit
      rfl
    · by_cases enqueue : kind = "enqueue"
      · subst enqueue
        rfl
      · simp [List.lookup_cons, beq_eq_false_iff_ne.mpr visit, beq_eq_false_iff_ne.mpr enqueue]
  let engine : Engine StockWidget := {
    name := "maze", algorithm := "bfs"
    widgets := .ofList [("steps", .counter { name := "steps" })]
    routing := .ofSpecs whole.eventBindings, tempo := { timing := {}, factor := 1.0 } }
  have made : Engine.build .stock whole {} = .ok engine := rfl
  obtain ⟨built, ran⟩ :=
    run_builtins_of_prunes prunes {} storyboard (some script) .null ({} : Rehearsal)
  rw [made] at built
  obtain ⟨_, _, left⟩ := ran engine _ made built
  have targets : (outcome engine).2.2.context.failures.map (·.binding) =
      ["steps", "ghost.onEvent", "steps.onPop"] := rfl
  have others : ((outcome engine).2.2.context.failures.filter (whole.links ·.binding)).map
      (·.binding) = ["steps.onPop"] := by
    have swap (failures : List RoutingFailure) :
        (failures.filter (whole.links ·.binding)).map (·.binding) =
          (failures.map (·.binding)).filter whole.links := by
      rw [List.filter_map]
      rfl
    rw [swap, targets]
    rfl
  refine ⟨prunes, engine, _, made, built, targets, ?_, rfl, congrArg (·.stage) left⟩
  exact (congrArg (·.context.failures.map (·.binding)) left).trans others

end Director

end Stagecraft
