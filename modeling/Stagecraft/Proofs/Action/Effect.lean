import Stagecraft.Proofs.Action.Cue
import Stagecraft.Proofs.Playback.Account
import Stagecraft.Proofs.Playback.Answer

/-!
This module contains the effect of the built-in actions. To play events is to dispatch as many of
them as the limit allows. In a scene of stock widgets every effect comes in two parts, neither of
which depends on the stage: the operations that are done there, and what there is for later actions.
-/

namespace Stagecraft

theorem EventSource.pull_stream (count : Nat) (s : EventStream) :
    (EventSource.pull count s).1 = s.toList.take count := by
  rw [EventStream.pull_eq, pull_list]
  unfold EventStream.toList
  apply List.ext_getElem
  · simp
  · simp

theorem Playback.takeUpTo_stream {ω σ : Type} [Widget ω] [Stage σ] (limit : Option Nat)
    (p : Playback ω σ) :
    p.takeUpTo limit =
      (p.events.toList.take (limit.getD p.remaining),
        { router := (p.events.toList.take (limit.getD p.remaining)).foldl Router.dispatch p.router
          events := (EventSource.pull (limit.getD p.remaining) p.events).2 }) := by
  unfold takeUpTo
  rw [take_eq, EventSource.pull_stream]

namespace Cue

def taken (events : List Event) (limit : Option Nat) : List Event :=
  (Event.numbered events).take (limit.getD events.length)

theorem play_eq_foldl_dispatch {ω σ : Type} [Widget ω] [Stage σ] (engine : Engine ω)
    (events : List Event) (limit : Option Nat) (p : Performance ω σ) :
    play engine events limit p =
      let router := (taken events limit).foldl Router.dispatch { engine, stage := p.stage }
      { context := { p.context with
          engine := some router.engine
          failures := p.context.failures ++ router.failures
          eventsPlayed := p.context.eventsPlayed + (taken events limit).length }
        stage := router.stage } := by
  let playback : Playback ω σ := {
    router := { engine, stage := p.stage }, events := { ahead := events } }
  have numbered : playback.events.toList = Event.numbered events := by
    simp [playback, EventStream.toList, Event.numbered]
  have played : playback.takeUpTo limit = _ := Playback.takeUpTo_stream limit playback
  rw [numbered] at played
  unfold play
  dsimp only
  rw [played]
  rfl

def answers (engine : Engine StockWidget) (events : List Event) (limit : Option Nat) :
    List Answer × Table StockWidget :=
  Trial.answerAll (engine.routing.trials (taken events limit)) engine.widgets

def ops (cue : Cue StockWidget) (seconds : Float) : List StageOp :=
  match cue with
  | .showTitle _ => [.add titleObject, .play [⟨titleObject, "write"⟩] seconds]
  | .showText object _ => [.add object, .play [⟨object, "write"⟩] seconds]
  | .setupScene name _ => [.remove titleObject, .add name, .play [⟨name, "fade_in"⟩] seconds]
  | .setupWidgets [] => []
  | .setupWidgets names => names.map .add ++ [.play (names.map (⟨·, "create"⟩)) seconds]
  | .playEvents engine events limit =>
    (answers engine events limit).1.filterMap (·.op? engine.tempo)
  | .highlight target effect => [.play [⟨target, effect⟩] seconds]
  | .wait pause => [.wait (pause.getD seconds)]
  | .outro targets => .play (targets.map (⟨·, "fade_out"⟩)) seconds :: targets.map .remove

def after (cue : Cue StockWidget) (context : Context StockWidget) : Context StockWidget :=
  match cue with
  | .showTitle text => context.setVar titleObject (.text text)
  | .showText object text => context.setVar object (.text text)
  | .setupScene name algorithm =>
    (context.setVar "scene" (.text name)).setVar "algorithm" (.text algorithm)
  | .playEvents engine events limit =>
    let failures := ((answers engine events limit).1.map (·.attempt)).filterMap (·.failure?)
    { context with
      engine := some { engine with widgets := (answers engine events limit).2 }
      failures := context.failures ++ failures
      eventsPlayed := context.eventsPlayed + (taken events limit).length }
  | .setupWidgets _ | .highlight .. | .wait _ | .outro _ => context

variable {σ : Type} [Stage σ]

theorem play_eq (engine : Engine StockWidget) (events : List Event) (limit : Option Nat)
    (p : Performance StockWidget σ) (seconds : Float) :
    play engine events limit p =
      { context := (playEvents engine events limit).after p.context
        stage := ((playEvents engine events limit).ops seconds).foldl Stage.perform p.stage } := by
  rw [play_eq_foldl_dispatch, Router.foldl_dispatch_eq_answers]
  rfl

/--
To perform an action is to do its operations on the stage, one after the other.
-/
theorem perform_eq (cue : Cue StockWidget) (seconds : Float) (p : Performance StockWidget σ) :
    cue.perform seconds p =
      { context := cue.after p.context
        stage := (cue.ops seconds).foldl Stage.perform p.stage } := by
  cases cue with
  | playEvents engine events limit => exact play_eq engine events limit p seconds
  | setupWidgets names =>
    cases names with
    | nil => rfl
    | cons name others =>
      unfold perform ops
      dsimp only
      rw [List.foldl_append, List.foldl_map]
      rfl
  | outro targets =>
    unfold perform ops
    dsimp only
    rw [List.foldl_cons, List.foldl_map]
    rfl
  | _ => rfl

end Cue

end Stagecraft
