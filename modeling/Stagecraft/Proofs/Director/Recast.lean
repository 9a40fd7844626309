import Stagecraft.Proofs.Director.BuiltinBeat

/-!
This module contains what built-in actions see of an engine: its name, its algorithm and the names
of its widgets. If an engine is put in the place of another one that looks the same, actions become
ready in the same way, and only the playing of events is given the other engine.
-/

namespace Stagecraft

variable {ω : Type}

structure Engine.Lookalike (f : Engine ω → Engine ω) : Prop where
  name (engine : Engine ω) : (f engine).name = engine.name
  algorithm (engine : Engine ω) : (f engine).algorithm = engine.algorithm
  widgetNames (engine : Engine ω) : (f engine).widgetNames = engine.widgetNames

/--
What actions find in `other` is what they find in `context`, with `f` of its engine.
-/
structure Context.Recast (f : Engine ω → Engine ω) (context other : Context ω) : Prop where
  engine : other.engine = context.engine.map f
  adapter : other.adapter = context.adapter
  scenario : other.scenario = context.scenario

def Cue.mapEngine (f : Engine ω → Engine ω) : Cue ω → Cue ω
  | .playEvents engine events limit => .playEvents (f engine) events limit
  | cue => cue

variable {f : Engine ω → Engine ω} {context other : Context ω}

theorem Context.Recast.requireEngine (h : context.Recast f other) :
    other.requireEngine = context.requireEngine.map f := by
  unfold Context.requireEngine
  rw [h.engine]
  cases context.engine with
  | none => rfl
  | some => rfl

theorem Context.Recast.requireAdapter (h : context.Recast f other) :
    other.requireAdapter = context.requireAdapter := by
  unfold Context.requireAdapter
  rw [h.adapter]

namespace Cue

theorem stageNames_recast (same : Engine.Lookalike f) (h : context.Recast f other) :
    other.stageNames = context.stageNames := by
  unfold Context.stageNames
  rw [h.engine]
  cases context.engine with
  | none => rfl
  | some engine =>
    dsimp only [Option.map_some]
    rw [same.name, same.widgetNames]

theorem ofArgs_recast (same : Engine.Lookalike f) (h : context.Recast f other) (builtin : Builtin)
    (args : Args) :
    ofArgs builtin args other = (ofArgs builtin args context).map (mapEngine f) := by
  cases builtin with
  | showTitle =>
    dsimp only [ofArgs]
    rw [h.engine, Option.map_map]
    have names : (Engine.name ∘ f) = Engine.name := funext same.name
    rw [names]
    rfl
  | showText | highlight =>
    dsimp only [ofArgs]
    generalize Builtin.requireText _ args _ = text
    cases text with
    | error => rfl
    | ok => rfl
  | setupScene =>
    dsimp only [ofArgs]
    rw [h.requireEngine]
    cases context.requireEngine with
    | error => rfl
    | ok engine =>
      dsimp only [bind, Except.bind, Except.map]
      rw [same.name, same.algorithm]
      rfl
  | setupWidgets =>
    dsimp only [ofArgs]
    rw [h.requireEngine]
    cases context.requireEngine with
    | error => rfl
    | ok engine =>
      dsimp only [bind, Except.bind, Except.map]
      rw [same.widgetNames]
      rfl
  | playEvents =>
    dsimp only [ofArgs]
    rw [h.requireEngine, h.requireAdapter, h.scenario]
    cases context.requireEngine with
    | error => rfl
    | ok engine =>
      cases context.requireAdapter with
      | error => rfl
      | ok adapter =>
        dsimp only [bind, Except.bind, Except.map]
        cases adapter.run ((args.get? "scenario").getD context.scenario) with
        | error => rfl
        | ok => rfl
  | wait => rfl
  | outro =>
    dsimp only [ofArgs]
    rw [stageNames_recast same h]
    rfl

end Cue

theorem Beat.cue_recast (same : Engine.Lookalike f) (h : context.Recast f other) (beat : Beat) :
    beat.cue other = (beat.cue context).map (Cue.mapEngine f) := by
  unfold Beat.cue
  cases Builtin.ofName? beat.action with
  | none => rfl
  | some builtin =>
    cases beat.invalidDuration? with
    | some => rfl
    | none => exact Cue.ofArgs_recast same h builtin beat.args

end Stagecraft
