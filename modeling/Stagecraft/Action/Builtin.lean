import Stagecraft.Action.Context

/-!
This module contains the built-in actions, step by step.
-/

namespace Stagecraft

inductive Builtin where
  | showTitle
  | showText
  | setupScene
  | setupWidgets
  | playEvents
  | highlight
  | wait
  | outro
  deriving DecidableEq, Repr

namespace Builtin

def all : List Builtin :=
  [showTitle, showText, setupScene, setupWidgets, playEvents, highlight, wait, outro]

def name : Builtin → String
  | showTitle => "show_title"
  | showText => "show_text"
  | setupScene => "setup_scene"
  | setupWidgets => "setup_widgets"
  | playEvents => "play_events"
  | highlight => "highlight"
  | wait => "wait"
  | outro => "outro"

def ofName? (name : String) : Option Builtin := all.find? (·.name = name)

end Builtin

def Args.text? (args : Args) (name : String) : Option String := (args.get? name).bind (·.toText?)

def Builtin.requireText (action : Builtin) (args : Args) (name : String) : Except Error String :=
  match args.text? name with
  | some text => .ok text
  | none => .error (.action (.missingArgument action.name name))

namespace Handler

variable {ω σ : Type} [Stage σ]

def showTitle (args : Args) (runTime : Float) : Handler (Performance ω σ) Unit := do
  let name := ((← context).engine.map (·.name)).getD "Untitled"
  setVar titleObject (.text ((args.text? "text").getD name))
  onStage (Stage.add · titleObject)
  onStage (Stage.play · [⟨titleObject, "write"⟩] runTime)

def showText (args : Args) (runTime : Float) : Handler (Performance ω σ) Unit := do
  let text ← Builtin.showText.requireText args "text"
  let object := (args.text? "id").getD "caption"
  setVar object (.text text)
  onStage (Stage.add · object)
  onStage (Stage.play · [⟨object, "write"⟩] runTime)

def setupScene (runTime : Float) : Handler (Performance ω σ) Unit := do
  let engine ← (← context).requireEngine
  onStage (Stage.remove · titleObject)
  onStage (Stage.add · engine.name)
  onStage (Stage.play · [⟨engine.name, "fade_in"⟩] runTime)
  setVar "scene" (.text engine.name)
  setVar "algorithm" (.text engine.algorithm)

def addWidget (name : String) : Handler (Performance ω σ) Animation := do
  onStage (Stage.add · name)
  return { target := name, effect := "create" }

def setupWidgets (runTime : Float) : Handler (Performance ω σ) Unit := do
  let engine ← (← context).requireEngine
  if engine.widgetNames.isEmpty then
    return
  let animations ← engine.widgetNames.mapM addWidget
  onStage (Stage.play · animations runTime)

/--
Plays the events of the adapter through a router of their own. What could not be delivered is added
to the failures of the run.
-/
def playEvents [Widget ω] (args : Args) : Handler (Performance ω σ) Unit := do
  let engine ← (← context).requireEngine
  let adapter ← (← context).requireAdapter
  let scenario := (args.get? "scenario").getD (← context).scenario
  let limit := ((args.get? "limit").bind (·.toIndex?)).map (·.toNat)
  let events ← adapter.run scenario
  let router : Router ω σ := { engine, stage := (← get).stage }
  let playback : Playback ω σ := { router, events := { ahead := events } }
  let (played, playback) := playback.takeUpTo limit
  let (failures, router) := playback.router.takeFailures
  modify fun p => {
    context := { p.context with engine := some router.engine }, stage := router.stage }
  modify fun p => { p with context.failures := p.context.failures ++ failures }
  modify fun p => { p with context.eventsPlayed := p.context.eventsPlayed + played.length }

def highlight (args : Args) (runTime : Float) : Handler (Performance ω σ) Unit := do
  let target ← Builtin.highlight.requireText args "target"
  let effect := (args.text? "effect").getD "indicate"
  onStage (Stage.play · [⟨target, effect⟩] runTime)

def wait (args : Args) (runTime : Float) : Handler (Performance ω σ) Unit :=
  onStage (Stage.wait · (((args.get? "seconds").bind (·.toFloat?)).getD runTime))

def outro (runTime : Float) : Handler (Performance ω σ) Unit := do
  let targets := (← context).stageNames
  onStage (Stage.play · (targets.map (⟨·, "fade_out"⟩)) runTime)
  targets.forM fun target => onStage (Stage.remove · target)

end Handler

/--
Does what an action does within `runTime` seconds. Events are timed each by its own kind.
-/
def Builtin.handle {ω σ : Type} [Widget ω] [Stage σ] (builtin : Builtin) (args : Args)
    (runTime : Float) : Handler (Performance ω σ) Unit :=
  match builtin with
  | showTitle => .showTitle args runTime
  | showText => .showText args runTime
  | setupScene => .setupScene runTime
  | setupWidgets => .setupWidgets runTime
  | playEvents => .playEvents args
  | highlight => .highlight args runTime
  | wait => .wait args runTime
  | outro => .outro runTime

def Builtin.action {ω σ : Type} [Widget ω] [Stage σ] (builtin : Builtin) : Action ω σ :=
  fun args runTime p => (builtin.handle args runTime).on p

end Stagecraft
