import Stagecraft.Document.Schema.Reader
import Stagecraft.Document.Schema.Writer

/-!
This module contains storyboards: acts made of shots made of beats. `Storyboard.beats` is the
storyboard as the one list that it is played as.
-/

namespace Stagecraft

/--
What an action is told beside its duration. Actions look up what they know and ignore the rest.
-/
abbrev Args := Table Value

/--
One call of an action.
-/
structure Beat where
  action : String
  args : Args := .empty
  /--
  Seconds, in place of those that the action takes by its bucket.
  -/
  duration : Option Float := none

namespace Beat

def schema : Schema Beat :=
  .record "struct Beat"
    (.required "action" .text <|
      .defaulted "args" .empty (.table .value) <|
      .optional ⟨"duration", ["run_time"]⟩ .real .nil)
    (fun (action, args, duration, ()) => { action, args, duration })
    (fun b => (b.action, b.args, b.duration, ()))

def withArg (b : Beat) (name : String) (value : Value) : Beat :=
  { b with args := b.args.insert name value }

end Beat

structure Shot where
  beats : List Beat := []

def Shot.schema : Schema Shot :=
  .record "struct Shot" (.defaulted "beats" [] (.list Beat.schema) .nil)
    (fun (beats, ()) => { beats })
    (fun s => (s.beats, ()))

structure Act where
  title : String := ""
  shots : List Shot := []

def Act.schema : Schema Act :=
  .record "struct Act"
    (.defaulted "title" "" .text <| .defaulted "shots" [] (.list Shot.schema) .nil)
    (fun (title, shots, ()) => { title, shots })
    (fun a => (a.title, a.shots, ()))

structure Storyboard where
  acts : List Act := []

namespace Storyboard

def schema : Schema Storyboard :=
  .record "struct Storyboard" (.defaulted "acts" [] (.list Act.schema) .nil)
    (fun (acts, ()) => { acts })
    (fun s => (s.acts, ()))

def beats (s : Storyboard) : List Beat :=
  s.acts.flatMap fun act => act.shots.flatMap fun shot => shot.beats

def beatCount (s : Storyboard) : Nat := s.beats.length

def isEmpty (s : Storyboard) : Bool := s.beatCount = 0

/--
The storyboard for an algorithm that has none of its own: the title, the scene and its widgets, the
events, and the way off the stage.
-/
def fallback (algorithm : String) : Storyboard :=
  let title := if algorithm.isEmpty then "Algorithm" else algorithm
  let beats : List Beat :=
    [({ action := "show_title" } : Beat).withArg "text" (.text title),
      { action := "setup_scene" }, { action := "setup_widgets" }, { action := "play_events" },
      { action := "outro" }]
  { acts := [{ title, shots := [{ beats }] }] }

def orFallback (script : Option Storyboard) (algorithm : String) : Storyboard :=
  script.getD (fallback algorithm)

end Storyboard

end Stagecraft
