import Stagecraft.Action.Registry
import Stagecraft.Tracker

/-!
This module contains the director, who plays a storyboard from its first beat to its last, or up to
the first beat that fails, and writes down how long each beat took. A director plays once.
-/

namespace Stagecraft

/--
The seconds that a beat is planned to take: its own, else those of its action. A beat that waits has
the length of a pause.
-/
def Beat.plannedTime (beat : Beat) (tempo : Tempo) : Except Error Float :=
  match beat.duration with
  | some seconds =>
    if seconds.isFinite ∧ 0 ≤ seconds then
      .ok seconds
    else
      .error (.config (.invalidDuration beat.action seconds))
  | none =>
    if beat.action = Builtin.wait.name then
      tempo.pauseTime none
    else
      tempo.actionTime beat.action none

/--
A run with the record of the beats that were played.
-/
structure Show (ω σ : Type) where
  performance : Performance ω σ
  tracker : Tracker := {}

namespace Show

variable {ω σ : Type} [Stage σ]

def prepare (registry : Registry ω σ) (beat : Beat) (s : Show ω σ) :
    Except Error (Action ω σ × Float) := do
  let action ← (registry.find beat.action).mapError fun reason =>
    .orchestration (.unknownAction beat.action reason)
  return (action, ← beat.plannedTime s.performance.context.tempo)

/--
Plays one beat. It is written down if it does not fail.
-/
def playBeat (registry : Registry ω σ) (beat : Beat) (s : Show ω σ) :
    Except Error Unit × Show ω σ :=
  match prepare registry beat s with
  | .error error => (.error error, s)
  | .ok (action, planned) =>
    let started := Stage.elapsed s.performance.stage
    match action beat.args planned s.performance with
    | (.error error, performance) => (.error error, { s with performance })
    | (.ok (), performance) =>
      let actual := Stage.elapsed performance.stage - started
      let tracker := s.tracker.record beat.action planned actual
      (.ok (), { performance, tracker })

end Show

/--
A storyboard on its way, and the record of what has been played of it.
-/
structure Director (ω σ : Type) where
  storyboard : Storyboard
  registry : Registry ω σ
  tracker : Tracker := {}
  state : RunState := .notStarted

namespace Director

variable {ω σ : Type} [Stage σ]

def enter (state : RunState) : Handler (Director ω σ × Performance ω σ) Unit :=
  modify fun (director, performance) => ({ director with state }, performance)

/--
Plays one beat. The director has failed if the beat fails.
-/
def playBeat (beat : Beat) : Handler (Director ω σ × Performance ω σ) Unit := do
  let (director, performance) ← get
  let s : Show ω σ := { performance, tracker := director.tracker }
  let (result, s) := Show.playBeat director.registry beat s
  set ({ director with tracker := s.tracker }, s.performance)
  if let .error error := result then
    enter .failed
    throw error

def play : Handler (Director ω σ × Performance ω σ) Unit := do
  let (director, _) ← get
  if director.state ≠ .notStarted then
    throw (.orchestration (.alreadyRun director.state))
  enter .running
  director.storyboard.acts.forM fun act => act.shots.forM fun shot => shot.beats.forM playBeat
  enter .completed

def run (director : Director ω σ) (performance : Performance ω σ) :
    Except Error Unit × Director ω σ × Performance ω σ :=
  play.on (director, performance)

end Director

end Stagecraft
