import Stagecraft.Proofs.Director.Curtain
import Stagecraft.Proofs.Director.Record

/-!
This module contains the run of the storyboard for algorithms that have none of their own. It is
played to its end in every scene, and the stage is empty afterwards; all that it takes is that the
adapter has the events.
-/

namespace Stagecraft

theorem Cue.length_taken_none (events : List Event) :
    (taken events none).length = events.length := by
  unfold taken Event.numbered
  simp

namespace Storyboard

def fallbackTitle (algorithm : String) : String :=
  if algorithm.isEmpty then "Algorithm" else algorithm

theorem beats_fallback (algorithm : String) :
    (fallback algorithm).beats =
      [{ action := "show_title", args := .ofList [("text", .text (fallbackTitle algorithm))] },
        { action := "setup_scene" }, { action := "setup_widgets" }, { action := "play_events" },
        { action := "outro" }] :=
  rfl

variable {adapter : Adapter} {scenario : Value} {events : List Event}

/--
Each beat finds what it needs, whatever the beats before it have changed.
-/
theorem transcript_fallback (algorithm : String) (engine : Engine StockWidget)
    (h : adapter.run scenario = .ok events) :
    let context := (Context.ofEngine engine).withAdapter adapter scenario
    let transcript := (fallback algorithm).transcript context
    transcript.error = none ∧ transcript.context.eventsPlayed = events.length := by
  intro context
  let first : Beat := {
    action := "show_title", args := .ofList [("text", .text (fallbackTitle algorithm))] }
  let start : Transcript := { context }
  let titled := start.perform first (.showTitle (fallbackTitle algorithm))
  let staged := titled.perform { action := "setup_scene" }
    (.setupScene engine.name engine.algorithm)
  let peopled := staged.perform { action := "setup_widgets" } (.setupWidgets engine.widgetNames)
  let played := peopled.perform { action := "play_events" } (.playEvents engine events none)
  let cleared := played.perform { action := "outro" } (.outro played.context.stageNames)
  have title : start.play first = titled := Transcript.play_of_cue rfl rfl
  have scene : titled.play { action := "setup_scene" } = staged := Transcript.play_of_cue rfl rfl
  have widgets : staged.play { action := "setup_widgets" } = peopled :=
    Transcript.play_of_cue rfl rfl
  have ready : ({ action := "play_events" } : Beat).cue peopled.context =
      .ok (.playEvents engine events none) := by
    change (adapter.run scenario).map (fun events => Cue.playEvents engine events none) = _
    rw [h]
    rfl
  have scripted : peopled.play { action := "play_events" } = played :=
    Transcript.play_of_cue rfl ready
  have last : played.play { action := "outro" } = cleared := Transcript.play_of_cue rfl rfl
  have whole : (fallback algorithm).transcript context = cleared := by
    unfold transcript
    rw [beats_fallback]
    simp only [List.foldl_cons, List.foldl_nil]
    rw [title, scene, widgets, scripted, last]
  rw [whole]
  refine ⟨rfl, ?_⟩
  change 0 + (Cue.taken events none).length = events.length
  rw [Nat.zero_add, Cue.length_taken_none]

end Storyboard

namespace Director

/--
If the adapter has the events, the storyboard for an algorithm without one is played to its end: its
five actions in order, each within the time that the tempo has for it, and all events, whatever
becomes of them. Nothing is left on the stage, whatever the scene and its widgets are called.
-/
theorem run_builtins_fallback (algorithm : String) (engine : Engine StockWidget)
    {adapter : Adapter} {scenario : Value} {events : List Event}
    (h : adapter.run scenario = .ok events) :
    let storyboard := Storyboard.fallback algorithm
    let context := (Context.ofEngine engine).withAdapter adapter scenario
    let outcome := ({ storyboard, registry := .builtins } : Director StockWidget Rehearsal).run
      { context, stage := {} }
    let actions := ["show_title", "setup_scene", "setup_widgets", "play_events", "outro"]
    outcome.1 = .ok () ∧ outcome.2.1.state = .completed ∧
    outcome.2.1.tracker.records.map (fun row => (row.action, row.planned)) =
      actions.map (fun action => (action, engine.tempo.runTime action)) ∧
    outcome.2.2.context.eventsPlayed = events.length ∧
    outcome.2.2.stage.objects = [] := by
  intro storyboard context outcome actions
  obtain ⟨completes, played⟩ := Storyboard.transcript_fallback algorithm engine h
  obtain ⟨result, state, _, left⟩ :=
    run_eq_transcript storyboard { context, stage := ({} : Rehearsal) }
  have done : outcome.1 = .ok () := result.trans (Transcript.result_eq_ok_iff.mpr completes)
  refine ⟨done, ?_, plan_records_of_ok done, ?_, ?_⟩
  · refine state.trans ?_
    rw [Transcript.state, completes]
    rfl
  · exact (congrArg (·.context.eventsPlayed) left).trans played
  · refine (congrArg (·.stage.objects) left).trans ?_
    rw [List.eq_nil_iff_forall_not_mem]
    intro object mem
    -- None of the five beats shows a caption, and everything else is taken away by the last one.
    obtain ⟨_, beat, listed, caption⟩ := (Transcript.mem_objects_of_outro rfl rfl completes).mp mem
    rw [Storyboard.beats_fallback] at listed
    simp only [List.mem_cons, List.not_mem_nil, or_false] at listed
    obtain rfl | rfl | rfl | rfl | rfl := listed
    all_goals cases caption

/--
A scene that is called like a widget of its own and like the title, with a binding that the widget
refuses and one that names no method.
-/
theorem run_builtins_fallback_of_clash :
    let spec : SceneSpec := {
      name := "title", algorithm := "", widgets := .ofList [("title", { kind := "counter" })]
      eventBindings := .ofList [
        ("visit", [.bare "title.onPop", .bare "title", .bare "title.onEvent"])] }
    let script := Adapter.scripted (some [{ kind := "visit" }, { kind := "relax" }])
    ∃ engine, Engine.build .stock spec {} = .ok engine ∧
      let context := (Context.ofEngine engine).withAdapter script .null
      let outcome := ({ storyboard := .fallback "", registry := .builtins } :
        Director StockWidget Rehearsal).run { context, stage := {} }
      outcome.1 = .ok () ∧ outcome.2.2.context.failures.length = 2 ∧
      outcome.2.2.context.eventsPlayed = 2 ∧ outcome.2.2.stage.objects = [] := by
  intro spec script
  let engine : Engine StockWidget := {
    name := "title", algorithm := "", widgets := .ofList [("title", .counter { name := "title" })]
    routing := .ofSpecs spec.eventBindings, tempo := { timing := {}, factor := 1.0 } }
  have built : Engine.build .stock spec {} = .ok engine := rfl
  have events : script.run .null = .ok [{ kind := "visit" }, { kind := "relax" }] := rfl
  obtain ⟨done, _, _, played, cleared⟩ := run_builtins_fallback "" engine events
  exact ⟨engine, built, done, by decide +kernel, played, cleared⟩

end Director

end Stagecraft
