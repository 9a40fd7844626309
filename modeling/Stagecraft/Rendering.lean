import Stagecraft.Director
import Stagecraft.Settings
import Stagecraft.Stage.Rehearsal

/-!
This module contains the rendering of a scene: from the documents that describe it to the record of
a dry run. The documents are taken one after the other, and the first thing that is wrong is the
answer.
-/

namespace Stagecraft

abbrev File := Option String

/--
The files that a rendering is made from. Of those that may be left out, none is asked for unless it
is named.
-/
structure Script where
  scene : File
  storyboard : Option File := none
  scenario : Option File := none
  settings : Option File := none
  /--
  The mode to play in, in place of that of the settings.
  -/
  mode : Option String := none

/--
What there is after a scene was rendered.
-/
structure Rendering where
  tracker : Tracker
  context : Context StockWidget
  stage : Rehearsal

def File.read (file : File) : Except Error String :=
  match file with
  | some text => .ok text
  | none => .error .missingFile

def File.decode {α : Type} (schema : Schema α) (file : File) : Except Error α := do
  (schema.decode (← file.read)).mapError .document

namespace Script

def readSettings (s : Script) : Except Error Settings :=
  match s.settings with
  | some file => file.read >>= Settings.ofText
  | none => .ok {}

def timing (s : Script) (settings : Settings) : Except Error Timing :=
  match s.mode with
  | some mode => settings.timing.withMode mode
  | none => .ok settings.timing

def engine (s : Script) (settings : Settings) (timing : Timing) :
    Except Error (Engine StockWidget) := do
  let scene ← s.scene.decode SceneSpec.schema
  let engine ← Engine.build .stock scene timing
  if settings.strictBindings then
    engine.validateBindings
  return engine

def readStoryboard (s : Script) (algorithm : String) : Except Error Storyboard :=
  match s.storyboard with
  | some file => file.decode Storyboard.schema
  | none => .ok (.fallback algorithm)

def readScenario (s : Script) : Except Error Value :=
  match s.scenario with
  | some file => file.decode .value
  | none => .ok .null

def render (s : Script) : Except Error Rendering := do
  let settings ← s.readSettings
  let timing ← s.timing settings
  let engine ← s.engine settings timing
  let storyboard ← s.readStoryboard engine.algorithm
  let scenario ← s.readScenario
  let context := (Context.ofEngine engine).withAdapter .scripted scenario
  let director : Director StockWidget Rehearsal := { storyboard, registry := .builtins }
  let (result, director, performance) := director.run { context, stage := {} }
  result
  return { tracker := director.tracker, context := performance.context, stage := performance.stage }

end Script

namespace Rendering

/--
Totals in the log have an exponent where they are small or have more than sixteen digits; whole ones
keep their point.
-/
def amount : Layout where
  positional e := -4 ≤ e && e ≤ 15
  whole := ".0"
  plus := ""
  tie := .up

/--
What is said about a rendering: its totals, and each binding that was not delivered.
-/
def log (r : Rendering) : List String :=
  let parts := [("beats", toString r.tracker.size), ("events", toString r.context.eventsPlayed),
    ("failures", toString r.context.failures.length),
    ("planned", amount.text r.tracker.totalPlanned), ("actual", amount.text r.tracker.totalActual)]
  let totals := String.intercalate " " (parts.map fun (name, text) => name ++ "=" ++ text)
  ("render finished " ++ totals) ::
    r.context.failures.map fun f => "event was not fully delivered failure=" ++ f.message

end Rendering

end Stagecraft
