import Stagecraft.Proofs.Director.Recast
import Stagecraft.Proofs.Director.Transcript
import Stagecraft.Proofs.Engine.Build
import Stagecraft.Stage.Rehearsal

/-!
This module compares runs at different tempos. What is untimed has its tempo and its seconds taken
out; a step of the untimed run is the untimed step, so runs that start alike stay alike.
-/

namespace Stagecraft

def StageOp.untimed : StageOp → StageOp
  | .add object => .add object
  | .remove object => .remove object
  | .play animations _ => .play animations 0
  | .wait _ => .wait 0

theorem StageOp.untimed_untimed (op : StageOp) : op.untimed.untimed = op.untimed := by
  cases op with
  | _ => rfl

namespace Rehearsal

def untimed (r : Rehearsal) : Rehearsal :=
  { r with ops := r.ops.map StageOp.untimed, clock := {} }

theorem untimed_perform (r : Rehearsal) (op : StageOp) :
    (Stage.perform r op).untimed = Stage.perform r.untimed op.untimed := by
  have log (r : Rehearsal) : (r.log op).untimed = r.untimed.log op.untimed := by
    simp [untimed, Rehearsal.log]
  cases op with
  | add object => apply log
  | remove object => apply log
  | play animations seconds => apply log
  | wait seconds => apply log

theorem untimed_foldl_perform (ops : List StageOp) (r : Rehearsal) :
    (ops.foldl Stage.perform r).untimed =
      (ops.map StageOp.untimed).foldl Stage.perform r.untimed := by
  rw [List.foldl_map]
  induction ops generalizing r with
  | nil => rfl
  | cons op rest ih => rw [List.foldl_cons, List.foldl_cons, ih, untimed_perform]

end Rehearsal

section Untimed

variable {ω : Type}

def Engine.untimed (engine : Engine ω) : Engine ω := { engine with tempo := .standard }

def Context.untimed (context : Context ω) : Context ω :=
  { context with engine := context.engine.map Engine.untimed, tempo := .standard }

def Cue.untimed : Cue ω → Cue ω
  | .playEvents engine events limit => .playEvents engine.untimed events limit
  | cue => cue

theorem Engine.map_untimed_build {factory : Factory ω} {timing other : Timing} {tempo pace : Tempo}
    (valid : Tempo.ofTiming timing = .ok tempo) (also : Tempo.ofTiming other = .ok pace)
    (spec : SceneSpec) :
    (build factory spec timing).map untimed = (build factory spec other).map untimed := by
  rw [build_eq_of_ofTiming valid, build_eq_of_ofTiming also]
  generalize spec.widgets.traverse _ = widgets
  cases widgets with
  | error => rfl
  | ok => rfl

theorem Context.untimed_untimed (context : Context ω) :
    context.untimed.untimed = context.untimed := by
  unfold untimed
  dsimp only
  rw [Option.map_map]
  rfl

theorem Engine.lookalike_untimed : Lookalike (untimed : Engine ω → Engine ω) :=
  ⟨fun _ => rfl, fun _ => rfl, fun _ => rfl⟩

theorem Context.recast_untimed (context : Context ω) :
    context.Recast Engine.untimed context.untimed :=
  ⟨rfl, rfl, rfl⟩

theorem Cue.mapEngine_untimed (cue : Cue ω) : cue.mapEngine Engine.untimed = cue.untimed := by
  cases cue with
  | _ => rfl

theorem Beat.cue_untimed (beat : Beat) (context : Context ω) :
    beat.cue context.untimed = (beat.cue context).map Cue.untimed := by
  have recast := cue_recast Engine.lookalike_untimed context.recast_untimed beat
  rwa [funext Cue.mapEngine_untimed] at recast

end Untimed

namespace Cue

theorem after_untimed (cue : Cue StockWidget) (context : Context StockWidget) :
    cue.untimed.after context.untimed = (cue.after context).untimed := by
  cases cue with
  | _ => rfl

theorem map_untimed_ops (cue : Cue StockWidget) (seconds other : Float) :
    (cue.untimed.ops seconds).map StageOp.untimed = (cue.ops other).map StageOp.untimed := by
  cases cue with
  | playEvents engine events limit =>
    dsimp only [ops, untimed]
    rw [List.map_filterMap, List.map_filterMap]
    -- The answers are the same ones; only the seconds that they are shown in may differ.
    congr 1
    funext a
    unfold Answer.op?
    cases a.result with
    | error => rfl
    | ok => rfl
  | setupWidgets names =>
    cases names with
    | nil => rfl
    | cons name others =>
      dsimp only [ops, untimed]
      rw [List.map_append, List.map_append]
      rfl
  | _ => rfl

end Cue

namespace Transcript

def untimed (t : Transcript) : Transcript :=
  { t with context := t.context.untimed, ops := t.ops.map StageOp.untimed }

theorem map_untimed_untimed (ops : List StageOp) :
    (ops.map StageOp.untimed).map StageOp.untimed = ops.map StageOp.untimed := by
  rw [List.map_map]
  apply List.map_congr_left
  intro op _
  exact op.untimed_untimed

theorem untimed_untimed (t : Transcript) : t.untimed.untimed = t.untimed := by
  unfold untimed
  dsimp only
  rw [Context.untimed_untimed, map_untimed_untimed]

theorem untimed_perform (t : Transcript) (beat : Beat) (cue : Cue StockWidget) :
    (t.untimed.perform beat cue.untimed).untimed = (t.perform beat cue).untimed := by
  unfold untimed perform
  dsimp only
  rw [Cue.after_untimed, Context.untimed_untimed, List.map_append, List.map_append,
    map_untimed_untimed, Cue.map_untimed_ops cue _ (beat.seconds t.context.tempo)]

theorem untimed_play (t : Transcript) (beat : Beat) :
    (t.untimed.play beat).untimed = (t.play beat).untimed := by
  cases stopped : t.error with
  | some error =>
    rw [play_of_error stopped, play_of_error (t := t.untimed) stopped]
    apply untimed_untimed
  | none =>
    have ready := beat.cue_untimed t.context
    cases made : beat.cue t.context with
    | error error =>
      rw [made] at ready
      rw [play_of_flaw stopped made, play_of_flaw (t := t.untimed) stopped ready]
      apply untimed_untimed { t with error := some error }
    | ok cue =>
      rw [made] at ready
      rw [play_of_cue stopped made, play_of_cue (t := t.untimed) stopped ready]
      apply untimed_perform

theorem untimed_foldl_play {t u : Transcript} (h : t.untimed = u.untimed) (beats : List Beat) :
    (beats.foldl play t).untimed = (beats.foldl play u).untimed := by
  induction beats generalizing t u with
  | nil => exact h
  | cons beat rest ih =>
    apply ih
    rw [← untimed_play, h, untimed_play]

end Transcript

theorem Storyboard.untimed_transcript {context other : Context StockWidget}
    (h : context.untimed = other.untimed) (storyboard : Storyboard) :
    (storyboard.transcript context).untimed = (storyboard.transcript other).untimed := by
  apply Transcript.untimed_foldl_play
  unfold Transcript.untimed
  rw [h]

namespace Director

theorem run_builtins_congr {context other : Context StockWidget}
    (h : context.untimed = other.untimed) (storyboard : Storyboard) :
    let outcome (context : Context StockWidget) :=
      ({ storyboard, registry := .builtins } : Director StockWidget Rehearsal).run
        { context, stage := {} }
    (outcome context).1 = (outcome other).1 ∧
    (outcome context).2.1.state = (outcome other).2.1.state ∧
    (outcome context).2.1.tracker.records.map (·.action) =
      (outcome other).2.1.tracker.records.map (·.action) ∧
    (outcome context).2.2.stage.untimed = (outcome other).2.2.stage.untimed ∧
    (outcome context).2.2.context.untimed = (outcome other).2.2.context.untimed := by
  intro outcome
  have alike := storyboard.untimed_transcript h
  have first := run_eq_transcript storyboard { context, stage := ({} : Rehearsal) }
  have second := run_eq_transcript storyboard { context := other, stage := ({} : Rehearsal) }
  dsimp only at first second
  have result := congrArg Transcript.result alike
  have state := congrArg Transcript.state alike
  have actions := congrArg Transcript.actions alike
  refine ⟨?_, ?_, ?_, ?_, ?_⟩
  · rw [first.1, second.1]
    exact result
  · rw [first.2.1, second.2.1]
    exact state
  · rw [first.2.2.1, second.2.2.1]
    exact actions
  · rw [first.2.2.2, second.2.2.2, Rehearsal.untimed_foldl_perform,
      Rehearsal.untimed_foldl_perform]
    exact congrArg (fun t => t.ops.foldl Stage.perform ({} : Rehearsal)) alike
  · rw [first.2.2.2, second.2.2.2]
    exact congrArg Transcript.context alike

/--
The timing of a scene decides how long things take and nothing else. At any two timings that are
accepted the same scenes can be built, and a storyboard has the same result, is written down with
the same actions, and leaves the same but for the seconds on stage and the tempo behind it.
-/
theorem run_builtins_eq_of_ofTiming {first second : Timing} {tempo pace : Tempo}
    (valid : Tempo.ofTiming first = .ok tempo) (also : Tempo.ofTiming second = .ok pace)
    (spec : SceneSpec) (storyboard : Storyboard) (adapter : Option Adapter) (scenario : Value) :
    (Engine.build .stock spec first).map Engine.untimed =
      (Engine.build .stock spec second).map Engine.untimed ∧
    ∀ one other, Engine.build .stock spec first = .ok one →
      Engine.build .stock spec second = .ok other →
        let outcome (engine : Engine StockWidget) :=
          let context := { Context.ofEngine engine with adapter, scenario }
          ({ storyboard, registry := .builtins } : Director StockWidget Rehearsal).run
            { context, stage := {} }
        (outcome one).1 = (outcome other).1 ∧
        (outcome one).2.1.state = (outcome other).2.1.state ∧
        (outcome one).2.1.tracker.records.map (·.action) =
          (outcome other).2.1.tracker.records.map (·.action) ∧
        (outcome one).2.2.stage.ops.map StageOp.untimed =
          (outcome other).2.2.stage.ops.map StageOp.untimed ∧
        (outcome one).2.2.stage.objects = (outcome other).2.2.stage.objects ∧
        (outcome one).2.2.context.untimed = (outcome other).2.2.context.untimed := by
  have built : (Engine.build .stock spec first).map _ = (Engine.build .stock spec second).map _ :=
    Engine.map_untimed_build valid also spec
  refine ⟨built, ?_⟩
  intro one other made made' outcome
  rw [made, made'] at built
  have alike : one.untimed = other.untimed := by simpa [Except.map] using built
  let context (engine : Engine StockWidget) : Context StockWidget :=
    { Context.ofEngine engine with adapter, scenario }
  have start : (context one).untimed = (context other).untimed := by
    unfold Context.untimed
    dsimp only [context, Context.ofEngine, Option.map_some]
    rw [alike]
  obtain ⟨result, state, actions, stage, left⟩ := run_builtins_congr start storyboard
  refine ⟨result, state, actions, ?_, ?_, left⟩
  · exact congrArg (·.ops) stage
  · exact congrArg (·.objects) stage

theorem run_builtins_eq_of_slow :
    let slow : Timing := { ui := 2.0, multipliers := .ofList [("slow", 4.0)], mode := "slow" }
    let spec : SceneSpec := {
      name := "maze", algorithm := "bfs", widgets := .ofList [("steps", { kind := "counter" })]
      eventBindings := .ofList [("visit", [.bare "steps.onEvent", .bare "steps"])] }
    let script : Adapter := .scripted (some [{ kind := "visit" }, { kind := "visit" }])
    let storyboard : Storyboard := {
      acts := [{ shots := [{ beats := [{ action := "play_events" }, { action := "wait" }] }] }] }
    let outcome (engine : Engine StockWidget) :=
      let context := { Context.ofEngine engine with adapter := some script }
      ({ storyboard, registry := .builtins } : Director StockWidget Rehearsal).run
        { context, stage := {} }
    ∃ tempo pace one other,
      Tempo.ofTiming slow = .ok tempo ∧ Tempo.ofTiming {} = .ok pace ∧
      Engine.build .stock spec slow = .ok one ∧ Engine.build .stock spec {} = .ok other ∧
      (outcome one).2.2.stage.ops.length = 3 ∧
      (outcome one).2.2.stage.ops.map StageOp.untimed =
        (outcome other).2.2.stage.ops.map StageOp.untimed := by
  have valid : Tempo.ofTiming
        { ui := 2.0, multipliers := .ofList [("slow", 4.0)], mode := "slow" } =
      .ok {
        timing := { ui := 2.0, multipliers := .ofList [("slow", 4.0)], mode := "slow" }
        factor := 4.0 } := rfl
  have also : Tempo.ofTiming {} = .ok { timing := {}, factor := 1.0 } := rfl
  intro slow spec script storyboard outcome
  let built (tempo : Tempo) : Engine StockWidget := {
    name := "maze", algorithm := "bfs"
    widgets := .ofList [("steps", .counter { name := "steps" })]
    routing := .ofSpecs spec.eventBindings, tempo }
  have build {timing : Timing} {tempo : Tempo} (h : Tempo.ofTiming timing = .ok tempo) :
      Engine.build .stock spec timing = .ok (built tempo) := by
    rw [Engine.build_eq_of_ofTiming h]
    rfl
  obtain ⟨_, _, _, ops, _⟩ :=
    (run_builtins_eq_of_ofTiming valid also spec storyboard (some script) .null).2 _ _
      (build valid) (build also)
  exact ⟨_, _, _, _, valid, also, build valid, build also, by decide +kernel, ops⟩

end Director

end Stagecraft
