import Stagecraft.Proofs.Director.Transcript
import Stagecraft.Proofs.Engine.Build
import Stagecraft.Proofs.Playback.Animation
import Stagecraft.Proofs.Stage.Log
import Stagecraft.Proofs.Tempo.Positive

/-!
This module contains where the durations come from that reach the stage in a run of the built-in
actions. Those of a beat and of a binding are looked at before they are used. Two kinds are not: the
product of a base and a factor, which can be infinite, and the seconds of a pause, which can be
negative.
-/

namespace Stagecraft

def Rehearsal.durations (r : Rehearsal) : List Float := r.ops.filterMap StageOp.seconds?

structure IsDuration (seconds : Float) : Prop where
  finite : seconds.isFinite = true
  zero_le : 0 ≤ seconds

theorem Value.isFinite_of_toFloat? {value : Value} {x : Float} (h : value.toFloat? = some x) :
    x.isFinite = true := by
  cases value with
  | number n =>
    cases h
    exact n.isFinite_toFloat
  | _ => cases h

theorem Binding.isDuration_of_duration? {binding : Binding} {seconds : Float}
    (h : binding.duration? = some seconds) : IsDuration seconds := by
  cases duration?_eq_some_iff.mp h with
  | duration _ finite zero_le => exact ⟨finite, zero_le⟩

namespace Beat

def pause? (beat : Beat) : Option Float :=
  if beat.action = Builtin.wait.name then
    (beat.args.get? "seconds").bind (·.toFloat?)
  else
    none

theorem isFinite_of_pause? {beat : Beat} {seconds : Float} (h : beat.pause? = some seconds) :
    seconds.isFinite = true := by
  unfold pause? at h
  split at h
  · obtain ⟨value, _, number⟩ := Option.bind_eq_some_iff.mp h
    exact Value.isFinite_of_toFloat? number
  · cases h

end Beat

namespace Tempo

/--
The durations that some beats can bring to the stage: those that make sense, the times of the tempo
that are too large for a double, and the pauses that are told to be negative.
-/
inductive Allows (t : Tempo) (beats : List Beat) (seconds : Float) : Prop where
  | duration (h : IsDuration seconds)
  | overflow (mem : seconds ∈ t.times) (infinite : seconds.isFinite = false)
    (positive : 0 ≤ seconds)
  | pause (beat : Beat) (mem : beat ∈ beats) (told : beat.pause? = some seconds)
    (finite : seconds.isFinite = true) (negative : seconds < 0)

variable {t : Tempo} {beats : List Beat}

theorem allows_of_mem_times (h : t.IsPositive) {seconds : Float} (mem : seconds ∈ t.times) :
    t.Allows beats seconds := by
  have positive := zero_le_of_mem_times h mem
  cases finite : seconds.isFinite with
  | true => exact .duration ⟨finite, positive⟩
  | false => exact .overflow mem finite positive

theorem allows_of_pause? {beat : Beat} {seconds : Float} (mem : beat ∈ beats)
    (told : beat.pause? = some seconds) : t.Allows beats seconds := by
  have finite := Beat.isFinite_of_pause? told
  by_cases positive : 0 ≤ seconds
  · exact .duration ⟨finite, positive⟩
  · exact .pause beat mem told finite (Double.lt_zero_of_not_zero_le finite positive)

theorem allows_seconds (h : t.IsPositive) {beat : Beat} (valid : beat.invalidDuration? = none) :
    t.Allows beats (beat.seconds t) := by
  unfold Beat.invalidDuration? at valid
  unfold Beat.seconds
  cases told : beat.duration with
  | some seconds =>
    rw [told] at valid
    dsimp only at valid ⊢
    split at valid
    next checked => exact .duration ⟨checked.1, checked.2⟩
    · cases valid
  | none =>
    dsimp only
    split
    · apply allows_of_mem_times h
      simp [times]
    · exact allows_of_mem_times h (t.runTime_mem_times beat.action)

theorem allows_answer (h : t.IsPositive) (a : Answer) : t.Allows beats (a.seconds t) := by
  unfold Answer.seconds
  cases told : a.trial.binding.duration? with
  | some seconds => exact .duration (Binding.isDuration_of_duration? told)
  | none => exact allows_of_mem_times h (t.runTime_mem_times _)

theorem Allows.isDuration {seconds : Float} (h : t.Allows beats seconds)
    (finite : ∀ seconds ∈ t.times, seconds.isFinite = true)
    (positive : ∀ beat ∈ beats, ∀ seconds, beat.pause? = some seconds → 0 ≤ seconds) :
    IsDuration seconds := by
  cases h with
  | duration h => exact h
  | overflow mem infinite =>
    rw [finite seconds mem] at infinite
    cases infinite
  | pause beat mem told finite => exact ⟨finite, positive beat mem seconds told⟩

end Tempo

structure Context.PlaysAt {ω : Type} (context : Context ω) (t : Tempo) : Prop where
  tempo : context.tempo = t
  engine : ∀ engine, context.engine = some engine → engine.tempo = t

namespace Cue

variable {builtin : Builtin} {beat : Beat} {context : Context StockWidget} {cue : Cue StockWidget}
  {t : Tempo}

theorem playsAt_after (h : Ready beat.args context builtin cue) (plays : context.PlaysAt t) :
    (cue.after context).PlaysAt t := by
  cases h with
  | playEvents engine known events limit =>
    refine ⟨plays.tempo, ?_⟩
    intro other same
    cases same
    exact plays.engine engine known
  | _ => exact ⟨plays.tempo, plays.engine⟩

theorem filterMap_seconds?_map {still : String → StageOp} (h : ∀ name, (still name).seconds? = none)
    (names : List String) : (names.map still).filterMap StageOp.seconds? = [] := by
  rw [List.filterMap_map, List.filterMap_eq_nil_iff]
  intro name _
  exact h name

theorem allows_of_mem_ops {beats : List Beat} {given seconds : Float}
    (h : Ready beat.args context builtin cue) (known : beat.action = builtin.name)
    (mem : beat ∈ beats) (valid : t.IsPositive) (plays : context.PlaysAt t)
    (planned : t.Allows beats given)
    (logged : seconds ∈ (cue.ops given).filterMap StageOp.seconds?) : t.Allows beats seconds := by
  cases h with
  | showTitle | showText | setupScene | highlight =>
    rw [List.mem_singleton.mp logged]
    exact planned
  | setupWidgets engine =>
    generalize engine.widgetNames = names at logged
    cases names with
    | nil => cases logged
    | cons name others =>
      unfold ops at logged
      rw [List.filterMap_append, filterMap_seconds?_map fun _ => rfl] at logged
      rw [List.mem_singleton.mp logged]
      exact planned
  | playEvents engine found events limit =>
    -- The seconds of the beat are not used here: each event has its own.
    unfold ops at logged
    obtain ⟨op, shown, lasts⟩ := List.mem_filterMap.mp logged
    obtain ⟨a, _, made⟩ := List.mem_filterMap.mp shown
    unfold Answer.op? at made
    rw [plays.engine engine found] at made
    split at made
    · cases made
      cases lasts
      exact Tempo.allows_answer valid a
    · cases made
  | wait =>
    rw [List.mem_singleton.mp logged]
    cases told : (beat.args.get? "seconds").bind (·.toFloat?) with
    | none => exact planned
    | some seconds =>
      apply Tempo.allows_of_pause? mem
      unfold Beat.pause?
      rw [if_pos known, told]
      rfl
  | outro =>
    unfold ops at logged
    rw [List.filterMap_cons, filterMap_seconds?_map fun _ => rfl] at logged
    rw [List.mem_singleton.mp logged]
    exact planned

end Cue

namespace Transcript

theorem allows_of_mem_foldl_play {beats : List Beat} {t : Tempo} (valid : t.IsPositive)
    {start : Transcript} (plays : start.context.PlaysAt t) (fresh : start.ops = [])
    {seconds : Float}
    (logged : seconds ∈ (beats.foldl play start).ops.filterMap StageOp.seconds?) :
    t.Allows beats seconds := by
  have kept : (beats.foldl play start).context.PlaysAt t ∧
      ∀ seconds ∈ (beats.foldl play start).ops.filterMap StageOp.seconds?,
        t.Allows beats seconds := by
    apply foldl_play_induction (motive := fun u => u.context.PlaysAt t ∧
      ∀ seconds ∈ u.ops.filterMap StageOp.seconds?, t.Allows beats seconds)
    · refine ⟨plays, ?_⟩
      rw [fresh]
      simp
    · intro u error kept
      exact kept
    · intro u beat cue mem ready ⟨plays, allowed⟩
      obtain ⟨builtin, known, checked, ready⟩ := Beat.exists_ready_of_cue ready
      refine ⟨Cue.playsAt_after ready plays, ?_⟩
      intro seconds logged
      dsimp only [perform] at logged
      rw [List.filterMap_append, List.mem_append, plays.tempo] at logged
      cases logged with
      | inl before => exact allowed seconds before
      | inr now =>
        exact Cue.allows_of_mem_ops ready (Builtin.ofName?_eq_some_iff.mp known) mem valid plays
          (Tempo.allows_seconds valid checked) now
  exact kept.2 seconds logged

theorem mem_seconds_foldl_play {t : Transcript} {seconds : Float}
    (logged : seconds ∈ t.ops.filterMap StageOp.seconds?) (beats : List Beat) :
    seconds ∈ (beats.foldl play t).ops.filterMap StageOp.seconds? := by
  apply foldl_play_induction (motive := fun u => seconds ∈ u.ops.filterMap StageOp.seconds?)
  · exact logged
  · intro u error kept
    exact kept
  · intro u beat cue _ _ kept
    dsimp only [perform]
    rw [List.filterMap_append]
    exact List.mem_append_left _ kept

theorem mem_seconds_play_of_pause? {t : Transcript} {beat : Beat} {seconds : Float}
    (done : (t.play beat).error = none) (told : beat.pause? = some seconds) :
    seconds ∈ (t.play beat).ops.filterMap StageOp.seconds? := by
  unfold Beat.pause? at told
  split at told
  next wait =>
    obtain ⟨cue, ready, played⟩ := exists_cue_of_play done
    obtain ⟨builtin, known, _, ready⟩ := Beat.exists_ready_of_cue ready
    rw [Builtin.ofName?_eq_some_iff.mpr wait] at known
    cases known
    cases ready
    rw [played, told]
    dsimp only [perform]
    rw [List.filterMap_append]
    apply List.mem_append_right
    apply List.mem_singleton_self
  · cases told

theorem mem_seconds_foldl_play_of_pause? {beats : List Beat} {t : Transcript} {beat : Beat}
    {seconds : Float} (done : (beats.foldl play t).error = none) (mem : beat ∈ beats)
    (told : beat.pause? = some seconds) :
    seconds ∈ (beats.foldl play t).ops.filterMap StageOp.seconds? := by
  obtain ⟨before, rest, rfl⟩ := List.append_of_mem mem
  rw [List.foldl_append, List.foldl_cons] at done ⊢
  apply mem_seconds_foldl_play
  exact mem_seconds_play_of_pause? (error_eq_none_of_foldl_play done) told

end Transcript

namespace Director

/--
The durations that reach the stage are finite and not negative, with two exceptions: times that are
too large, and pauses that are told to be negative, which a run that completes has all made as they
were told. If there are none of these in the timing and in the storyboard, every duration makes
sense, however the run ends.
-/
theorem run_builtins_durations {spec : SceneSpec} {timing : Timing} {engine : Engine StockWidget}
    (built : Engine.build .stock spec timing = .ok engine) (storyboard : Storyboard)
    (adapter : Option Adapter) (scenario : Value) :
    let context := { Context.ofEngine engine with adapter, scenario }
    let outcome := ({ storyboard, registry := .builtins } : Director StockWidget Rehearsal).run
      { context, stage := {} }
    (∀ seconds ∈ outcome.2.2.stage.durations,
      engine.tempo.Allows storyboard.beats seconds) ∧
    ((∀ seconds ∈ engine.tempo.times, seconds.isFinite = true) →
      (∀ beat ∈ storyboard.beats, ∀ seconds, beat.pause? = some seconds → 0 ≤ seconds) →
        ∀ seconds ∈ outcome.2.2.stage.durations, IsDuration seconds) ∧
    (outcome.1 = .ok () → ∀ beat ∈ storyboard.beats, ∀ seconds, beat.pause? = some seconds →
      seconds ∈ outcome.2.2.stage.durations) := by
  intro context outcome
  have ran := run_eq_transcript storyboard { context, stage := ({} : Rehearsal) }
  have logged : outcome.2.2.stage.durations =
      (storyboard.transcript context).ops.filterMap StageOp.seconds? := by
    have left : outcome.2.2 = _ := ran.2.2.2
    unfold Rehearsal.durations
    rw [left, Rehearsal.ops_foldl_perform]
    rfl
  have valid := Tempo.isPositive_of_ofTiming (Engine.ofTiming_tempo_build built)
  have plays : context.PlaysAt engine.tempo := by
    refine ⟨rfl, ?_⟩
    intro other same
    cases same
    rfl
  have allowed : ∀ seconds ∈ outcome.2.2.stage.durations,
      engine.tempo.Allows storyboard.beats seconds := by
    intro seconds mem
    rw [logged] at mem
    exact Transcript.allows_of_mem_foldl_play valid plays rfl mem
  refine ⟨allowed, ?_, ?_⟩
  · intro finite positive seconds mem
    exact (allowed seconds mem).isDuration finite positive
  · intro done beat mem seconds told
    rw [logged]
    apply Transcript.mem_seconds_foldl_play_of_pause? _ mem told
    rw [← Transcript.result_eq_ok_iff]
    exact ran.1.symm.trans done

theorem run_builtins_durations_of_pause :
    -- The second of these bindings is shown as if it had no duration.
    let bound (seconds : Number) : BindingSpec :=
      .detailed "steps.onEvent" (.ofList [("duration", .number seconds)])
    let spec : SceneSpec := {
      name := "maze", algorithm := "bfs", widgets := .ofList [("steps", { kind := "counter" })]
      eventBindings := .ofList [
        ("visit", [bound (.integer 3 (by decide)), bound (.integer (-3) (by decide))])] }
    let pause : Beat := {
      action := "wait", args := .ofList [("seconds", .number (.integer 2 (by decide)))] }
    let storyboard : Storyboard := {
      acts := [{ shots := [{ beats := [{ action := "play_events" }, pause] }] }] }
    ∃ engine, Engine.build .stock spec {} = .ok engine ∧
      let context := {
        Context.ofEngine engine with adapter := some (.scripted (some [{ kind := "visit" }])) }
      let outcome := ({ storyboard, registry := .builtins } : Director StockWidget Rehearsal).run
        { context, stage := {} }
      outcome.2.2.stage.durations.length = 3 ∧
      (∀ seconds ∈ outcome.2.2.stage.durations, IsDuration seconds) ∧
      Number.floatOfInt 2 ∈ outcome.2.2.stage.durations := by
  have finite : ∀ seconds ∈ ({ timing := {}, factor := 1.0 } : Tempo).times,
      seconds.isFinite = true := by
    decide
  have positive : 0 ≤ Number.floatOfInt 2 := by decide
  intro bound spec pause storyboard
  have built : Engine.build .stock spec {} = .ok {
      name := "maze", algorithm := "bfs"
      widgets := .ofList [("steps", .counter { name := "steps" })]
      routing := .ofSpecs spec.eventBindings, tempo := { timing := {}, factor := 1.0 } } := rfl
  obtain ⟨_, sane, pauses⟩ := run_builtins_durations built storyboard
    (some (.scripted (some [{ kind := "visit" }]))) .null
  refine ⟨_, built, by decide +kernel, ?_, ?_⟩
  · apply sane finite
    intro beat mem seconds told
    cases List.mem_cons.mp mem with
    | inl first =>
      cases first
      cases told
    | inr second =>
      cases List.mem_singleton.mp second
      cases told
      exact positive
  · have mem : pause ∈ storyboard.beats := List.mem_cons_of_mem _ (List.mem_singleton_self _)
    exact pauses (eq_ok_of_isOk (by decide +kernel)) pause mem _ rfl

theorem run_builtins_of_negative_pause :
    let spec : SceneSpec := { name := "maze", algorithm := "bfs" }
    let pause : Beat := {
      action := "wait", args := .ofList [("seconds", .number (.integer (-1) (by decide)))] }
    let storyboard : Storyboard := { acts := [{ shots := [{ beats := [pause] }] }] }
    ∃ engine, Engine.build .stock spec {} = .ok engine ∧
      let outcome := ({ storyboard, registry := .builtins } : Director StockWidget Rehearsal).run
        { context := .ofEngine engine, stage := {} }
      outcome.1 = .ok () ∧ outcome.2.2.stage.durations = [-1.0] ∧ ¬ IsDuration (-1.0) := by
  intro spec pause storyboard
  refine ⟨_, rfl, rfl, rfl, ?_⟩
  intro h
  exact absurd h.zero_le (by decide)

end Director

end Stagecraft
