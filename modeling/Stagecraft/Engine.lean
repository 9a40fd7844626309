import Stagecraft.Routing
import Stagecraft.Tempo
import Stagecraft.Widget.Factory

/-!
This module contains scenes as they are declared, and engines, which are scenes made live: the pool
of widgets, the routing of events to them, and the tempo they are played in. The pool is fixed when
the engine is built.
-/

namespace Stagecraft

/--
A widget as it is declared.
-/
structure WidgetSpec where
  kind : String
  params : Table Value := .empty

def WidgetSpec.schema : Schema WidgetSpec :=
  .record "struct WidgetSpec"
    (.required "type" .text <| .defaulted "params" .empty (.table .value) .nil)
    (fun (kind, params, ()) => { kind, params })
    (fun s => (s.kind, s.params, ()))

/--
A scene as it is declared: its widgets, and where each kind of event goes.
-/
structure SceneSpec where
  name : String
  algorithm : String
  widgets : Table WidgetSpec := .empty
  eventBindings : Table (List BindingSpec) := .empty

namespace SceneSpec

def schema : Schema SceneSpec :=
  .record "struct SceneConfig"
    (.required "name" .text <|
      .required "algorithm" .text <|
      .defaulted "widgets" .empty (.table WidgetSpec.schema) <|
      .defaulted "event_bindings" .empty (.table (.list BindingSpec.schema)) .nil)
    (fun (name, algorithm, widgets, eventBindings, ()) =>
      { name, algorithm, widgets, eventBindings })
    (fun s => (s.name, s.algorithm, s.widgets, s.eventBindings, ()))

def withWidget (s : SceneSpec) (name : String) (spec : WidgetSpec) : SceneSpec :=
  { s with widgets := s.widgets.insert name spec }

def withBinding (s : SceneSpec) (kind : String) (spec : BindingSpec) : SceneSpec :=
  let bindings := (s.eventBindings.get? kind).getD [] ++ [spec]
  { s with eventBindings := s.eventBindings.insert kind bindings }

end SceneSpec

/--
A live scene with widgets of the type `ω`.
-/
structure Engine (ω : Type) where
  name : String
  algorithm : String
  widgets : Table ω
  routing : Routing
  tempo : Tempo

namespace Engine

variable {ω : Type}

/--
Makes a scene live. The timing is looked at first, then the widgets are made in the order of their
names.
-/
def build (factory : Factory ω) (spec : SceneSpec) (timing : Timing) : Except Error (Engine ω) := do
  let tempo ← Tempo.ofTiming timing
  let widgets ← spec.widgets.traverse fun name widget =>
    factory.build name widget.kind widget.params
  return {
    name := spec.name, algorithm := spec.algorithm, widgets,
    routing := .ofSpecs spec.eventBindings, tempo }

def validateBindings (engine : Engine ω) : Except Error Unit :=
  match engine.routing.malformed with
  | [] => .ok ()
  | malformed =>
    .error (.config (.malformedBindings (malformed.map fun (kind, b) => (kind, b.label))))

def widgetNames (engine : Engine ω) : List String := engine.widgets.keys

end Engine

end Stagecraft
