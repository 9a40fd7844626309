import Mathlib.Algebra.GroupWithZero.Nat
import Stagecraft.Proofs.Action.EventCount
import Stagecraft.Proofs.Director.BuiltinBeat

/-!
This module contains the account that a run gives of its events: how many have been played, and
which bindings could not be delivered.
-/

namespace Stagecraft

namespace Cue

variable {ω σ : Type} [Widget ω] [Stage σ]

/--
What could not be delivered before has no influence on an action, and stays.
-/
theorem failures_perform (cue : Cue ω) (seconds : Float) (p : Performance ω σ) :
    (cue.perform seconds p).context.failures =
      p.context.failures ++
        (cue.perform seconds { p with context.failures := [] }).context.failures := by
  cases cue with
  | playEvents engine events limit =>
    dsimp only [perform]
    rw [play_eq_foldl_dispatch, play_eq_foldl_dispatch]
    rfl
  | setupWidgets names =>
    cases names with
    | nil => exact (List.append_nil _).symm
    | cons => exact (List.append_nil _).symm
  | _ => exact (List.append_nil _).symm

end Cue

namespace Beat

variable {ω σ : Type}

/--
How many events a beat plays in some context, if it does not fail there.
-/
def eventCount (context : Context ω) (beat : Beat) : Nat :=
  if beat.action = Builtin.playEvents.name then
    match context.adapter with
    | none => 0
    | some adapter =>
      match adapter.run ((beat.args.get? "scenario").getD context.scenario) with
      | .ok events => Cue.eventCount beat.args events.length
      | .error _ => 0
  else
    0

variable [Widget ω] [Stage σ]

/--
What a beat cannot deliver.
-/
def refusals (beat : Beat) (p : Performance ω σ) : List RoutingFailure :=
  (beat.play .builtins { p with context.failures := [] }).2.context.failures

theorem eventCount_perform (beat : Beat) (cue : Cue ω) (seconds : Float) (p : Performance ω σ) :
    beat.eventCount (cue.perform seconds p).context = beat.eventCount p.context := by
  obtain ⟨_, _, _, _, same⟩ := Cue.exists_context_perform cue seconds p
  rw [same]
  rfl

theorem eventsPlayed_perform {beat : Beat} {p : Performance ω σ} {cue : Cue ω}
    (h : beat.cue p.context = .ok cue) (seconds : Float) :
    (cue.perform seconds p).context.eventsPlayed =
      p.context.eventsPlayed + beat.eventCount p.context := by
  obtain ⟨builtin, known, _, made⟩ := exists_ofArgs_of_cue h
  rw [Builtin.ofName?_eq_some_iff] at known
  unfold eventCount
  rw [known]
  cases builtin with
  | playEvents =>
    obtain ⟨engine, adapter, events, _, script, listed, rfl⟩ :=
      Cue.ofArgs_playEvents_eq_ok_iff.mp made
    rw [if_pos rfl, script]
    dsimp only [Cue.perform]
    rw [listed, Cue.play_limit?]
  | setupWidgets =>
    cases Cue.ready_of_ofArgs made with
    | setupWidgets engine =>
      cases engine.widgetNames with
      | nil => rfl
      | cons => rfl
  | _ =>
    cases Cue.ready_of_ofArgs made
    rfl

theorem failures_perform {beat : Beat} {p : Performance ω σ} {cue : Cue ω}
    (h : beat.cue p.context = .ok cue) :
    (cue.perform (beat.seconds p.context.tempo) p).context.failures =
      p.context.failures ++ beat.refusals p := by
  have ready : beat.cue { p.context with failures := [] } = .ok cue := h
  unfold refusals
  rw [Cue.failures_perform, play_builtins_eq, ready]

end Beat

/--
What beats cannot deliver that are played one after the other.
-/
def refusals {ω σ : Type} [Widget ω] [Stage σ] : List Beat → Performance ω σ → List RoutingFailure
  | [], _ => []
  | beat :: rest, p => beat.refusals p ++ refusals rest (beat.play .builtins p).2

section Run

variable {ω σ : Type} [Widget ω] [Stage σ]

theorem Progress.exists_tally (beats : List Beat) (s : Progress ω σ) (h : s.error = none) :
    let progress := beats.foldl (play .builtins) s
    let start := s.performance.context
    ∃ finished others, beats = finished ++ others ∧
      progress.rows.map (·.action) = s.rows.map (·.action) ++ finished.map (·.action) ∧
      progress.performance.context.eventsPlayed =
        start.eventsPlayed + (finished.map (Beat.eventCount start)).sum ∧
      progress.performance.context.failures =
        start.failures ++ refusals finished s.performance := by
  induction beats generalizing s with
  | nil => exact ⟨[], [], rfl, by simp, by simp, by simp [refusals]⟩
  | cons beat rest ih =>
    rw [List.foldl_cons]
    cases ready : beat.cue s.performance.context with
    | error error =>
      rw [play_of_flaw h ready, foldl_play_of_error .builtins rest _ error rfl]
      exact ⟨[], beat :: rest, rfl, by simp, by simp, by simp [refusals]⟩
    | ok cue =>
      rw [play_of_cue h ready]
      obtain ⟨finished, others, rfl, rows, count, failures⟩ := ih (s.perform beat cue) h
      refine ⟨beat :: finished, others, rfl, ?_, ?_, ?_⟩
      · rw [rows]
        simp [perform]
      · have counts (other : Beat) : other.eventCount (s.perform beat cue).performance.context =
            other.eventCount s.performance.context :=
          other.eventCount_perform cue _ s.performance
        rw [count, List.map_cons, List.sum_cons, ← Nat.add_assoc]
        congr 1
        · exact Beat.eventsPlayed_perform ready _
        · rw [List.map_congr_left fun other _ => counts other]
      · have played : (beat.play .builtins s.performance).2 =
            (s.perform beat cue).performance := by
          rw [Beat.play_builtins_eq, ready]
          rfl
        unfold refusals
        rw [failures, played, ← List.append_assoc]
        congr 1
        exact Beat.failures_perform ready

end Run

namespace Director

/--
To play events with a limit is to play the first ones of them, as an adapter would have it that
makes no others. They are counted, and what they left undelivered is added in their order. So a run
counts the events of the beats that finished, and has what each of these left, one after the other.
-/
theorem run_builtins_tally {ω σ : Type} [Widget ω] [Stage σ] (storyboard : Storyboard)
    (p : Performance ω σ) :
    (∀ (args : Args) (seconds : Float) engine adapter events,
      p.context.engine = some engine → p.context.adapter = some adapter →
      adapter.run ((args.get? "scenario").getD p.context.scenario) = .ok events →
      let count := Cue.eventCount args events.length
      let outcome := Builtin.playEvents.action args seconds p
      outcome.1 = .ok () ∧
      (∀ (others : Args) (short : Adapter) (other : Float), others.get? "limit" = none →
        short.run ((others.get? "scenario").getD p.context.scenario) = .ok (events.take count) →
        Builtin.playEvents.action others other { p with context.adapter := some short } =
          (.ok (), { outcome.2 with context.adapter := some short })) ∧
      outcome.2.context.vars = p.context.vars ∧
      outcome.2.context.eventsPlayed = p.context.eventsPlayed + count ∧
      ∃ fresh places, outcome.2.context.failures = p.context.failures ++ fresh ∧
        fresh.map (·.step) = places.map .ofNat ∧ places.Pairwise (· ≤ ·) ∧
        (∀ place ∈ places, place < count) ∧
        (count ≤ 2 ^ 64 → fresh.map (·.step.toNat) = places)) ∧
    let outcome := ({ storyboard, registry := .builtins } : Director ω σ).run p
    let rows := outcome.2.1.tracker.records
    let finished := storyboard.beats.take rows.length
    let last := outcome.2.2.context
    rows.map (·.action) = finished.map (·.action) ∧
    last.eventsPlayed =
      p.context.eventsPlayed + (finished.map (Beat.eventCount p.context)).sum ∧
    last.failures = p.context.failures ++ refusals finished p := by
  constructor
  · intro args seconds engine adapter events known script made count outcome
    have played : outcome = _ := Builtin.action_playEvents known script made seconds
    obtain ⟨places, steps, ordered, bounded⟩ :=
      Router.exists_places_failures engine p.stage (events.take count)
    rw [Cue.length_take_eventCount] at bounded
    rw [played, Cue.play_limit?]
    refine ⟨rfl, ?_, rfl, rfl, _, places, rfl, steps, ordered, bounded, ?_⟩
    · intro others short other unlimited listed
      have alone := Builtin.action_playEvents (p := { p with context.adapter := some short })
        known rfl listed other
      rw [alone, Cue.play_take args unlimited, Cue.play_limit?]
    · intro small
      have kept (place : Nat) (mem : place ∈ places) : (UInt64.ofNat place).toNat = place := by
        apply UInt64.toNat_ofNat_of_lt
        exact Nat.lt_of_lt_of_le (bounded place mem) small
      have numbers := congrArg (List.map UInt64.toNat) steps
      rw [List.map_map, List.map_map] at numbers
      exact numbers.trans ((List.map_congr_left kept).trans (List.map_id' places))
  · intro outcome rows finished last
    let progress := storyboard.beats.foldl (Progress.play .builtins) { performance := p }
    have ran : outcome =
        (progress.result,
          { storyboard, registry := .builtins, tracker := { records := progress.rows }
            state := progress.state },
          progress.performance) := run_eq_progress .builtins storyboard p
    obtain ⟨done, others, beats, actions, count, failures⟩ :=
      Progress.exists_tally storyboard.beats { performance := p } rfl
    have same : finished = done := by
      have length := congrArg List.length actions
      dsimp only [finished, rows]
      rw [ran, beats]
      apply List.take_left'
      simpa using length.symm
    rw [same]
    dsimp only [rows, last]
    rw [ran]
    exact ⟨actions, count, failures⟩

/--
A limit of two for three events, with a binding that the counter refuses each time, and an action
that is not known after the first.
-/
theorem run_builtins_tally_of_limit :
    let spec : SceneSpec := {
      name := "count", algorithm := "bfs", widgets := .ofList [("steps", { kind := "counter" })]
      eventBindings := .ofList [("visit", [.bare "steps.onEvent", .bare "steps.onPop"])] }
    let script := Adapter.scripted (some (List.replicate 3 { kind := "visit" }))
    let two := Adapter.scripted (some (List.replicate 2 { kind := "visit" }))
    let args : Args := .ofList [("limit", .ofIndex 2)]
    let storyboard : Storyboard := {
      acts := [{ shots := [{ beats := [
        { action := "play_events", args }, { action := "dance", args },
        { action := "play_events" }] }] }] }
    ∃ engine, Engine.build .stock spec {} = .ok engine ∧
      let p : Performance StockWidget Rehearsal := {
        context := { Context.ofEngine engine with adapter := some script, eventsPlayed := 7 }
        stage := {} }
      let outcome := Builtin.playEvents.action args 1.0 p
      let director : Director StockWidget Rehearsal := { storyboard, registry := .builtins }
      let last := (director.run p).2.2
      Builtin.playEvents.action .empty 2.0 { p with context.adapter := some two } =
        (.ok (), { outcome.2 with context.adapter := some two }) ∧
      outcome.2.context.failures.map (·.step) = [0, 1] ∧
      last.context.eventsPlayed = 9 := by
  intro spec script two args storyboard
  let engine : Engine StockWidget := {
    name := "count", algorithm := "bfs"
    widgets := .ofList [("steps", .counter { name := "steps" })]
    routing := .ofSpecs spec.eventBindings, tempo := { timing := {}, factor := 1.0 } }
  have built : Engine.build .stock spec {} = .ok engine := rfl
  refine ⟨engine, built, ?_⟩
  intro p outcome director last
  obtain ⟨beat, _, count, _⟩ := run_builtins_tally storyboard p
  obtain ⟨_, shortened, _⟩ := beat args 1.0 engine script _ rfl rfl rfl
  have alone := shortened .empty two 2.0 rfl rfl
  refine ⟨alone, ?_, ?_⟩
  · decide +kernel
  · refine count.trans ?_
    decide +kernel

end Director

end Stagecraft
