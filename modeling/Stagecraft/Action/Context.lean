import Stagecraft.Adapter
import Stagecraft.Document.Inspection
import Stagecraft.Handler
import Stagecraft.Router
import Stagecraft.Storyboard

/-!
This module contains what the actions of a run share.
-/

namespace Stagecraft

def titleObject : String := "title"

/--
The state that is handed from action to action. Where there is an engine, its tempo is that of the
run.
-/
structure Context (ω : Type) where
  engine : Option (Engine ω) := none
  adapter : Option Adapter := none
  /--
  What the adapter makes events from.
  -/
  scenario : Value := .null
  tempo : Tempo := .standard
  /--
  Values that actions leave for later ones.
  -/
  vars : Table Value := .empty
  failures : List RoutingFailure := []
  eventsPlayed : Nat := 0

namespace Context

variable {ω : Type}

def ofEngine (engine : Engine ω) : Context ω := { engine := some engine, tempo := engine.tempo }

def ofTempo (tempo : Tempo) : Context ω := { tempo }

def withAdapter (context : Context ω) (adapter : Adapter) (scenario : Value) : Context ω :=
  { context with adapter := some adapter, scenario }

def setVar (context : Context ω) (name : String) (value : Value) : Context ω :=
  { context with vars := context.vars.insert name value }

def requireEngine (context : Context ω) : Except Error (Engine ω) :=
  match context.engine with
  | some engine => .ok engine
  | none => .error (.action .noEngine)

def requireAdapter (context : Context ω) : Except Error Adapter :=
  match context.adapter with
  | some adapter => .ok adapter
  | none => .error (.action .noAdapter)

/--
Everything that the actions of a scene put on stage: the title, the scene, and its widgets.
-/
def stageNames (context : Context ω) : List String :=
  titleObject :: match context.engine with
    | none => []
    | some engine => engine.name :: engine.widgetNames

def describe (context : Context ω) : String :=
  description "ActionContext" [("engine", quotedOption (context.engine.map (·.name))),
    ("adapter", quotedOption (context.adapter.map (·.name))), ("vars", inspectTable context.vars),
    ("failures", toString context.failures.length),
    ("events_played", toString context.eventsPlayed)]

end Context

/--
A run between two actions: what actions share, and the stage.
-/
structure Performance (ω σ : Type) where
  context : Context ω
  stage : σ

namespace Handler

variable {ω σ : Type}

def context : Handler (Performance ω σ) (Context ω) := return (← get).context

def setVar (name : String) (value : Value) : Handler (Performance ω σ) Unit :=
  modify fun p => { p with context := p.context.setVar name value }

def onStage (f : σ → σ) : Handler (Performance ω σ) Unit :=
  modify fun p => { p with stage := f p.stage }

end Handler

/--
What can be called by a beat: from the arguments of the beat and its seconds, whether it works, and
what there is afterwards. An action that fails may have changed things before.
-/
abbrev Action (ω σ : Type) :=
  Args → (runTime : Float) → Performance ω σ → Except Error Unit × Performance ω σ

end Stagecraft
