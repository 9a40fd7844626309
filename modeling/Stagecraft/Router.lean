import Stagecraft.Engine

/-!
This module contains the delivery of events to widgets. Every binding for an event is tried, in the
order in which the bindings were declared. One that cannot be delivered is written down and passed
over; it stops neither the other bindings nor later events.
-/

namespace Stagecraft

/--
Why a binding could not be delivered.
-/
inductive RefusalReason where
  | malformed
  | noWidget (name : String)
  | refused (error : Error)

def RefusalReason.message : RefusalReason → String
  | malformed => "binding is not `widget.method`"
  | noWidget name => s!"no widget named `{name}`"
  | refused error => error.message

/--
One binding that could not be delivered, with the event it was for.
-/
structure RoutingFailure where
  step : UInt64
  kind : String
  binding : String
  reason : RefusalReason

def RoutingFailure.message (f : RoutingFailure) : String :=
  s!"step {f.step} ({f.kind}) -> {f.binding}: {f.reason.message}"

/--
An engine at work on a stage.
-/
structure Router (ω σ : Type) where
  engine : Engine ω
  stage : σ
  failures : List RoutingFailure := []
  /--
  The number of bindings delivered so far.
  -/
  delivered : Nat := 0

namespace Router

variable {ω σ : Type} [Widget ω] [Stage σ]

/--
Tries one binding. Whether or not the widget accepts, what it did to itself and the stage stays.
-/
def attempt (event : Event) (runTime : Float) (router : Router ω σ) (binding : Binding) :
    Except RefusalReason Unit × Router ω σ :=
  match binding with
  | .malformed _ => (.error .malformed, router)
  | .method name method _ =>
    match router.engine.widgets.get? name with
    | none => (.error (.noWidget name), router)
    | some widget =>
      let runTime := binding.duration?.getD runTime
      let reaction := Widget.update widget method event runTime router.stage
      let widgets := router.engine.widgets.insert name reaction.widget
      let engine := { router.engine with widgets }
      (reaction.result.mapError .refused, { router with engine, stage := reaction.stage })

/--
Tries one more binding. `progress` is the number of those that succeeded, with the router.
-/
def deliver (event : Event) (runTime : Float) (progress : Nat × Router ω σ) (binding : Binding) :
    Nat × Router ω σ :=
  let (succeeded, router) := progress
  match attempt event runTime router binding with
  | (.ok (), router) => (succeeded + 1, router)
  | (.error reason, router) =>
    let failure : RoutingFailure :=
      { step := event.step, kind := event.kind, binding := binding.label, reason }
    (succeeded, { router with failures := router.failures ++ [failure] })

/--
Tries every binding for an event. The result is the number of those that succeeded.
-/
def route (router : Router ω σ) (event : Event) : Nat × Router ω σ :=
  match router.engine.routing.bindings? event.kind with
  | none => (0, router)
  | some bindings =>
    let runTime := router.engine.tempo.runTime event.kind
    let (succeeded, router) := bindings.foldl (deliver event runTime) (0, router)
    (succeeded, { router with delivered := router.delivered + succeeded })

/--
The router after an event, where nobody asks how many bindings succeeded.
-/
def dispatch (router : Router ω σ) (event : Event) : Router ω σ := (router.route event).2

/--
The number of bindings delivered between two moments.
-/
def deliveredSince (before after : Router ω σ) : Nat := after.delivered - before.delivered

def takeFailures (router : Router ω σ) : List RoutingFailure × Router ω σ :=
  (router.failures, { router with failures := [] })

def describe (router : Router ω σ) : String :=
  description "EventRouter" [("scene", quoted router.engine.name),
    ("failures", toString router.failures.length), ("delivered", toString router.delivered)]

end Router

/--
Events that are delivered as they are taken.
-/
structure Playback (ω σ : Type) (ι : Type := EventStream) where
  router : Router ω σ
  events : ι

namespace Playback

variable {ω σ ι : Type} [Widget ω] [Stage σ] [EventSource ι]

def next? (p : Playback ω σ ι) : Option (Event × Playback ω σ ι) :=
  match EventSource.next? p.events with
  | none => none
  | some (event, events) => some (event, { router := p.router.dispatch event, events })

def remaining (p : Playback ω σ ι) : Nat := EventSource.remaining p.events

/--
Takes and delivers up to `count` events.
-/
def take : Nat → Playback ω σ ι → List Event × Playback ω σ ι
  | 0, p => ([], p)
  | count + 1, p =>
    match p.next? with
    | none => ([], p)
    | some (event, p) =>
      let (events, p) := take count p
      (event :: events, p)

/--
Takes and delivers all events, or as many as `limit` allows.
-/
def takeUpTo (limit : Option Nat) (p : Playback ω σ ι) : List Event × Playback ω σ ι :=
  take (limit.getD p.remaining) p

end Playback

end Stagecraft
