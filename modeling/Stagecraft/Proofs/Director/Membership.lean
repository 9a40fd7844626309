import Stagecraft.Proofs.Action.Effect
import Stagecraft.Proofs.Director.BuiltinBeat
import Stagecraft.Proofs.Engine.Membership

/-!
This module contains what a run of the built-in actions finds as it was, at each of its points: the
engine with its members and its wiring, the adapter, the scenario and the tempo.
-/

namespace Stagecraft

open Widget (Evolves)

/--
What `live` has of `context`, where `R` relates what widgets were to what they are.
-/
structure Context.Keeps {ω : Type} (R : ω → ω → Prop) (context live : Context ω) : Prop where
  tempo : live.tempo = context.tempo
  scenario : live.scenario = context.scenario
  adapter : live.adapter = context.adapter
  engine : Option.Rel (Engine.Keeps R) context.engine live.engine

namespace Context.Keeps

variable {ω : Type} {R S : ω → ω → Prop}

theorem refl (same : ∀ widget, R widget widget) (context : Context ω) : context.Keeps R context :=
  ⟨rfl, rfl, rfl, rel_refl (.refl same) _⟩

theorem trans (step : ∀ a b c, R a b → R b c → R a c) {first second third : Context ω}
    (h : first.Keeps R second) (h' : second.Keeps R third) : first.Keeps R third where
  tempo := h'.tempo.trans h.tempo
  scenario := h'.scenario.trans h.scenario
  adapter := h'.adapter.trans h.adapter
  engine := rel_trans (fun _ _ _ => .trans step) h.engine h'.engine

theorem mono (weaken : ∀ a b, R a b → S a b) {context live : Context ω} (h : context.Keeps R live) :
    context.Keeps S live where
  tempo := h.tempo
  scenario := h.scenario
  adapter := h.adapter
  engine := rel_mono (fun _ _ => .mono weaken) h.engine

theorem keeps_engine {context live : Context ω} (h : context.Keeps R live) {first last : Engine ω}
    (known : context.engine = some first) (found : live.engine = some last) :
    first.Keeps R last := by
  have rel := h.engine
  rw [known, found] at rel
  cases rel with
  | some same => exact same

end Context.Keeps

section Run

variable {ω σ : Type} [Widget ω] [Stage σ]

theorem Cue.keeps_perform {builtin : Builtin} {args : Args} {cue : Cue ω} {p : Performance ω σ}
    (h : Ready args p.context builtin cue) (seconds : Float) :
    p.context.Keeps (Evolves σ) (cue.perform seconds p).context := by
  have engine : Option.Rel (Engine.Keeps (Evolves σ)) p.context.engine
      (cue.perform seconds p).context.engine := by
    cases h with
    | playEvents engine known events limit =>
      dsimp only [perform]
      rw [known, play_eq_foldl_dispatch]
      exact .some (Router.keeps_foldl_dispatch _ { engine, stage := p.stage })
    | setupWidgets engine known =>
      cases engine.widgetNames with
      | nil => exact rel_refl (.refl fun _ => .refl) _
      | cons => exact rel_refl (.refl fun _ => .refl) _
    | _ => exact rel_refl (.refl fun _ => .refl) _
  obtain ⟨_, _, _, _, same⟩ := exists_context_perform cue seconds p
  rw [same] at engine ⊢
  exact ⟨rfl, rfl, rfl, engine⟩

theorem Progress.keeps_foldl_play (beats : List Beat) (s : Progress ω σ) :
    s.performance.context.Keeps (Evolves σ)
      (beats.foldl (play .builtins) s).performance.context := by
  apply foldl_play_induction (motive := fun t => Context.Keeps _ _ t.performance.context)
  · exact .refl (fun _ => .refl) _
  · intro t error kept
    exact kept
  · intro t beat cue _ ready kept
    obtain ⟨builtin, _, _, ready⟩ := Beat.exists_ready_of_cue ready
    exact kept.trans (fun _ _ _ => .trans) (Cue.keeps_perform ready _)

end Run

namespace Director

variable {ω σ : Type} [Stage σ]

/--
What there is when `count` beats of the storyboard have been played, or when one of them has failed
before.
-/
def reached (director : Director ω σ) (count : Nat) (p : Performance ω σ) : Performance ω σ :=
  let beats := director.storyboard.beats.take count
  (untilFailure (Show.playBeat director.registry) beats
    { performance := p, tracker := director.tracker }).2.performance

theorem reached_eq (director : Director ω σ) (count : Nat) (p : Performance ω σ) :
    director.reached count p =
      ((director.storyboard.beats.take count).foldl (Progress.play director.registry)
        { performance := p, rows := director.tracker.records }).performance := by
  unfold reached
  dsimp only
  rw [Progress.untilFailure_playBeat]

theorem run_eq_reached (registry : Registry ω σ) (storyboard : Storyboard) (p : Performance ω σ) :
    let director : Director ω σ := { storyboard, registry }
    (director.run p).2.2 = director.reached storyboard.beats.length p := by
  intro director
  rw [run_eq_progress, reached_eq, List.take_length]

/--
Between the beats of a run, and after it, there are the widgets that it began with, made as they
were, and the same wiring. Sound widgets, like those of an engine that was just built, stay sound.
Where a run began with one tempo, every action has the same time in the engine and beside it.
-/
theorem run_builtins_keeps [Widget ω] [StockPool ω] (storyboard : Storyboard)
    (p : Performance ω σ) (count : Nat) :
    let director : Director ω σ := { storyboard, registry := .builtins }
    let point := (director.reached count p).context
    (director.run p).2.2 = director.reached storyboard.beats.length p ∧
    p.context.Keeps (Resembles σ) point ∧
    ∀ engine live, p.context.engine = some engine → point.engine = some live →
      (engine.IsSound → live.IsSound) ∧
      (∀ factory spec timing, factory.IsSound → Engine.build factory spec timing = .ok engine →
        live.IsSound) ∧
      ((∀ (widget : ω) method event seconds (stage : σ), StockPool.stock? widget = none →
          let reaction := Widget.update widget method event seconds stage
          Widget.kind reaction.widget = Widget.kind widget) →
        ∀ name, (live.widgets.get? name).map Widget.kind =
          (engine.widgets.get? name).map Widget.kind) ∧
      (p.context.tempo = (Context.ofEngine engine).tempo → ∀ action mode,
        point.tempo.runTime action = live.tempo.runTime action ∧
        point.tempo.actionTime action mode = live.tempo.actionTime action mode) := by
  intro director point
  have kept : p.context.Keeps (Resembles σ) point := by
    dsimp only [point]
    rw [reached_eq]
    have evolves := Progress.keeps_foldl_play (storyboard.beats.take count) { performance := p }
    exact evolves.mono fun _ _ => resembles_of_evolves
  refine ⟨run_eq_reached .builtins storyboard p, kept, ?_⟩
  intro engine live known found
  have same := kept.keeps_engine known found
  refine ⟨same.isSound, ?_, ?_, ?_⟩
  · intro factory spec timing sound built
    apply same.isSound
    exact Engine.isSound_build sound built
  · intro lawful name
    apply map_eq_of_rel _ (same.widgets name)
    intro _ _ resembles
    exact resembles.kind_eq lawful
  · intro timed action mode
    have tempo : point.tempo = live.tempo := by
      rw [kept.tempo, timed, same.tempo]
      rfl
    rw [tempo]
    exact ⟨rfl, rfl⟩

/--
A queue for one item that is given two, a grid that is given a cell inside it and one outside, and a
type of its own that makes widgets which stay as they are.
-/
theorem run_builtins_keeps_of_full_queue :
    let pile : Constructor (StockWidget ⊕ Stack) := fun name _ => .ok (.inr { name })
    let spec : SceneSpec := {
      name := "maze", algorithm := "bfs"
      widgets := .ofList [
        ("grid", { kind := "grid", params := .ofList [("cols", .ofIndex 1)] }),
        ("pile", { kind := "pile" }),
        ("queue", { kind := "queue", params := .ofList [("capacity", .ofIndex 1)] })]
      eventBindings := .ofList [
        ("enqueue", [.bare "queue.onEnqueue", .bare "grid.onVisit", .bare "pile.onPush"])] }
    let enqueue (col : Value) : Event := {
      kind := "enqueue", payload := .ofList [("node", .array [.ofIndex 0, col])] }
    let script := Adapter.scripted (some [enqueue (.ofIndex 0), enqueue (.ofIndex 1)])
    let events : Beat := { action := "play_events", args := .ofList [("scenario", .flag true)] }
    let storyboard : Storyboard := {
      acts := [{ shots := [{ beats := [events, events, { action := "dance" }] }] }] }
    ∃ factory engine live,
      (Factory.stock.map .inl).register "pile" pile = .ok factory ∧
      Engine.build factory spec {} = .ok engine ∧
      let p : Performance (StockWidget ⊕ Stack) Rehearsal := {
        context := { Context.ofEngine engine with adapter := some script }, stage := {} }
      let director : Director (StockWidget ⊕ Stack) Rehearsal := {
        storyboard, registry := .builtins }
      let point := (director.reached 2 p).context
      point.engine = some live ∧ point.failures.length = 5 ∧ point.scenario = .null ∧
      live.IsSound ∧
      (live.widgets.get? "queue").map Widget.kind = some "queue" ∧
      point.tempo.runTime "enqueue" = live.tempo.runTime "enqueue" := by
  intro pile spec enqueue script events storyboard
  let engine : Engine (StockWidget ⊕ Stack) := {
    name := "maze", algorithm := "bfs"
    widgets := .ofList [
      ("grid", .inl (.grid { name := "grid", rows := 5, cols := 1 })),
      ("pile", .inr { name := "pile" }),
      ("queue", .inl (.queue { name := "queue", capacity := some 1 }))]
    routing := .ofSpecs spec.eventBindings, tempo := { timing := {}, factor := 1.0 } }
  let factory : Factory (StockWidget ⊕ Stack) :=
    ⟨(Factory.stock.map .inl).constructors.insert "pile" pile⟩
  have registered : (Factory.stock.map .inl).register "pile" pile = .ok factory := rfl
  have sound : factory.IsSound := by
    apply Factory.isSound_stock.map.register _ registered
    intro name params widget stock made same
    cases made
    cases same
  have built : Engine.build factory spec {} = .ok engine := rfl
  let p : Performance (StockWidget ⊕ Stack) Rehearsal := {
    context := { Context.ofEngine engine with adapter := some script }, stage := {} }
  let director : Director (StockWidget ⊕ Stack) Rehearsal := { storyboard, registry := .builtins }
  obtain ⟨_, kept, members⟩ := run_builtins_keeps storyboard p 2
  have found : (director.reached 2 p).context.engine.isSome = true := by decide +kernel
  have refused : (director.reached 2 p).context.failures.length = 5 := by decide +kernel
  obtain ⟨live, known⟩ := Option.isSome_iff_exists.mp found
  obtain ⟨_, stays, kinds, times⟩ := members engine live rfl known
  refine ⟨factory, engine, live, registered, built, known, refused, kept.scenario, ?_, ?_, ?_⟩
  · exact stays factory spec {} sound built
  · apply kinds
    intro widget method event seconds stage other
    cases widget with
    | inl => cases other
    | inr widget =>
      change Widget.kind (Widget.update widget method event seconds stage).widget = _
      rw [Stack.update_eq]
      cases widget.respond method event with
      | error => rfl
      | ok => rfl
  · exact (times rfl "enqueue" none).1

end Director

end Stagecraft
