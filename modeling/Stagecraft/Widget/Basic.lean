import Stagecraft.Event
import Stagecraft.Handler
import Stagecraft.Stage.Basic

/-!
This module contains what a widget is: something with a state that reacts to events on a stage.
A widget that fails may have changed itself and the stage before.
-/

namespace Stagecraft

/--
What is there after a widget was updated.
-/
structure Reaction (ω σ : Type) where
  result : Except Error Unit
  widget : ω
  stage : σ

/--
Things that react to events. `update` handles a method for an event within a number of seconds.
-/
class Widget (ω : Type) where
  kind : ω → String
  update : {σ : Type} → [Stage σ] → ω → (method : String) → Event → (runTime : Float) → σ →
    Reaction ω σ
  /--
  The state of a widget, as reports show it.
  -/
  snapshot : ω → Value

/--
The reaction of a widget that does one thing after the other to itself and to the stage.
-/
def Reaction.ofHandler {ω σ : Type} (handler : Handler (ω × σ) Unit) (widget : ω) (stage : σ) :
    Reaction ω σ :=
  let (result, widget, stage) := handler.on (widget, stage)
  { result, widget, stage }

namespace Handler

variable {ω σ : Type}

def widget : Handler (ω × σ) ω := return (← get).1

def setWidget (widget : ω) : Handler (ω × σ) Unit := modify fun (_, stage) => (widget, stage)

def refuse {α : Type} (cause : WidgetError) : Handler (ω × σ) α := throw (.widget cause)

def play [Stage σ] (animation : Animation) (runTime : Float) : Handler (ω × σ) Unit :=
  modify fun (widget, stage) => (widget, Stage.play stage [animation] runTime)

end Handler

def Reaction.map {ω ω' σ : Type} (f : ω → ω') (r : Reaction ω σ) : Reaction ω' σ :=
  { r with widget := f r.widget }

instance {α β : Type} [Widget α] [Widget β] : Widget (α ⊕ β) where
  kind
    | .inl widget => Widget.kind widget
    | .inr widget => Widget.kind widget
  update
    | .inl widget, method, event, runTime, stage =>
      (Widget.update widget method event runTime stage).map .inl
    | .inr widget, method, event, runTime, stage =>
      (Widget.update widget method event runTime stage).map .inr
  snapshot
    | .inl widget => Widget.snapshot widget
    | .inr widget => Widget.snapshot widget

def positiveParam (params : Table Value) (name : String) (default : UInt64) :
    Except Error UInt64 :=
  match params.get? name with
  | none => .ok default
  | some value =>
    match value.toIndex? with
    | some n => if 0 < n then .ok n else .error (.config (.notPositiveInteger name))
    | none => .error (.config (.notPositiveInteger name))

end Stagecraft
