import Stagecraft.Action.Builtin
import Stagecraft.Proofs.Handler

/-!
This module contains that the built-in actions make sure that everything is there that they need
before anything happens: `Builtin.action_eq`. `Cue.ofArgs` is what can fail, `Cue.perform` what
happens then. So an action that fails has done nothing.
-/

namespace Stagecraft

/--
A built-in action that is ready to be performed.
-/
inductive Cue (ω : Type) where
  | showTitle (text : String)
  | showText (object text : String)
  | setupScene (name algorithm : String)
  | setupWidgets (names : List String)
  | playEvents (engine : Engine ω) (events : List Event) (limit : Option Nat)
  | highlight (target effect : String)
  /--
  A pause of some seconds, or of those of the beat.
  -/
  | wait (seconds : Option Float)
  | outro (targets : List String)

namespace Cue

variable {ω σ : Type}

/--
Makes an action ready. Nothing has happened yet if that fails.
-/
def ofArgs (action : Builtin) (args : Args) (context : Context ω) : Except Error (Cue ω) :=
  match action with
  | .showTitle =>
    let name := (context.engine.map (·.name)).getD "Untitled"
    .ok (.showTitle ((args.text? "text").getD name))
  | .showText => do
    let text ← action.requireText args "text"
    return .showText ((args.text? "id").getD "caption") text
  | .setupScene => do
    let engine ← context.requireEngine
    return .setupScene engine.name engine.algorithm
  | .setupWidgets => do
    let engine ← context.requireEngine
    return .setupWidgets engine.widgetNames
  | .playEvents => do
    let engine ← context.requireEngine
    let adapter ← context.requireAdapter
    let events ← adapter.run ((args.get? "scenario").getD context.scenario)
    return .playEvents engine events (((args.get? "limit").bind (·.toIndex?)).map (·.toNat))
  | .highlight => do
    let target ← action.requireText args "target"
    return .highlight target ((args.text? "effect").getD "indicate")
  | .wait => .ok (.wait ((args.get? "seconds").bind (·.toFloat?)))
  | .outro => .ok (.outro context.stageNames)

/--
Plays events through a router of their own. What could not be delivered is added to the failures of
the run.
-/
def play [Widget ω] [Stage σ] (engine : Engine ω) (events : List Event) (limit : Option Nat)
    (p : Performance ω σ) : Performance ω σ :=
  let router : Router ω σ := { engine, stage := p.stage }
  let playback : Playback ω σ := { router, events := { ahead := events } }
  let (played, playback) := playback.takeUpTo limit
  { context := { p.context with
      engine := some playback.router.engine
      failures := p.context.failures ++ playback.router.failures
      eventsPlayed := p.context.eventsPlayed + played.length }
    stage := playback.router.stage }

/--
Performs an action within `runTime` seconds. Events are timed each by its own kind.
-/
def perform [Widget ω] [Stage σ] (cue : Cue ω) (runTime : Float) (p : Performance ω σ) :
    Performance ω σ :=
  match cue with
  | .showTitle text =>
    let stage := Stage.add p.stage titleObject
    { context := p.context.setVar titleObject (.text text)
      stage := Stage.play stage [⟨titleObject, "write"⟩] runTime }
  | .showText object text =>
    let stage := Stage.add p.stage object
    { context := p.context.setVar object (.text text)
      stage := Stage.play stage [⟨object, "write"⟩] runTime }
  | .setupScene name algorithm =>
    let stage := Stage.add (Stage.remove p.stage titleObject) name
    { context := (p.context.setVar "scene" (.text name)).setVar "algorithm" (.text algorithm)
      stage := Stage.play stage [⟨name, "fade_in"⟩] runTime }
  | .setupWidgets [] => p
  | .setupWidgets names =>
    let stage := names.foldl Stage.add p.stage
    { p with stage := Stage.play stage (names.map (⟨·, "create"⟩)) runTime }
  | .playEvents engine events limit => play engine events limit p
  | .highlight target effect =>
    { p with stage := Stage.play p.stage [⟨target, effect⟩] runTime }
  | .wait seconds => { p with stage := Stage.wait p.stage (seconds.getD runTime) }
  | .outro targets =>
    let stage := Stage.play p.stage (targets.map (⟨·, "fade_out"⟩)) runTime
    { p with stage := targets.foldl Stage.remove stage }

end Cue

namespace Handler

variable {ω σ : Type} [Stage σ]

theorem on_mapM_addWidget (names : List String) (p : Performance ω σ) :
    (names.mapM addWidget : Handler (Performance ω σ) (List Animation)).on p =
      (.ok (names.map (⟨·, "create"⟩)), { p with stage := names.foldl Stage.add p.stage }) := by
  induction names generalizing p with
  | nil => rfl
  | cons name names ih => simp [addWidget, Except.map, ih]

theorem on_forM_remove (names : List String) (p : Performance ω σ) :
    (forM names fun name => onStage (Stage.remove · name) : Handler (Performance ω σ) Unit).on p =
      (.ok (), { p with stage := names.foldl Stage.remove p.stage }) := by
  induction names generalizing p with
  | nil => rfl
  | cons name names ih => simp [ih]

end Handler

variable {ω σ : Type} [Widget ω] [Stage σ]

/--
What can fail comes first.
-/
theorem Builtin.action_eq {builtin : Builtin} {args : Args} {runTime : Float}
    {p : Performance ω σ} :
    builtin.action args runTime p =
      match Cue.ofArgs builtin args p.context with
      | .ok cue => (.ok (), cue.perform runTime p)
      | .error error => (.error error, p) := by
  unfold action handle
  cases builtin with
  | showTitle => rfl
  | showText =>
    simp only [Handler.showText, Handler.on_bind, Handler.on_liftM, Cue.ofArgs]
    cases requireText .showText args "text" with
    | ok text => rfl
    | error error => rfl
  | setupScene =>
    simp only [Handler.setupScene, Handler.on_bind, Handler.on_context, Handler.on_liftM,
      Cue.ofArgs]
    cases p.context.requireEngine with
    | ok engine => rfl
    | error error => rfl
  | setupWidgets =>
    simp only [Handler.setupWidgets, Handler.on_bind, Handler.on_context, Handler.on_liftM,
      Cue.ofArgs]
    cases p.context.requireEngine with
    | error error => rfl
    | ok engine =>
      change _ = (_, Cue.perform (.setupWidgets engine.widgetNames) runTime p)
      dsimp only
      cases engine.widgetNames with
      | nil => rfl
      | cons name names =>
        -- The animations are made as the widgets are added, and played when all are there.
        simp only [List.isEmpty_cons, Bool.false_eq_true, if_false, Handler.on_bind,
          Handler.on_mapM_addWidget]
        rfl
  | playEvents =>
    simp only [Handler.playEvents, Handler.on_bind, Handler.on_context, Handler.on_liftM,
      Cue.ofArgs]
    cases p.context.requireEngine with
    | error error => rfl
    | ok engine =>
      dsimp only
      cases p.context.requireAdapter with
      | error error => rfl
      | ok adapter =>
        dsimp only [bind, Except.bind]
        cases adapter.run ((args.get? "scenario").getD p.context.scenario) with
        | error error => rfl
        | ok events => rfl
  | highlight =>
    simp only [Handler.highlight, Handler.on_bind, Handler.on_liftM, Cue.ofArgs]
    cases requireText .highlight args "target" with
    | ok target => rfl
    | error error => rfl
  | wait => rfl
  | outro =>
    simp only [Handler.outro, Handler.on_bind, Handler.on_context, Handler.on_onStage]
    exact Handler.on_forM_remove _ _

end Stagecraft
