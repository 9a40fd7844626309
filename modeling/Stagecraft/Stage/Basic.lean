import Stagecraft.Document.Schema.Reader
import Stagecraft.Document.Schema.Writer

/-!
This module contains stages: what a show is played on. A stage knows objects by name; what it draws
for them is its own business.
-/

namespace Stagecraft

/--
A request to animate an object.
-/
structure Animation where
  target : String
  effect : String
  deriving DecidableEq, Repr

def Animation.schema : Schema Animation :=
  .record "struct Animation" (.required "target" .text <| .required "effect" .text .nil)
    (fun (target, effect, ()) => { target, effect })
    (fun a => (a.target, a.effect, ()))

/--
One thing that is done on a stage.
-/
inductive StageOp where
  | add (object : String)
  | remove (object : String)
  | play (animations : List Animation) (runTime : Float)
  | wait (duration : Float)

namespace StageOp

def schema : Schema StageOp :=
  .tagged "internally tagged enum SceneOp" "op" <|
    .cons "add" "struct variant SceneOp::Add" (.required "object" .text .nil)
      (fun (object, ()) => .add object)
      (fun | .add object => some (object, ()) | _ => none) <|
    .cons "remove" "struct variant SceneOp::Remove" (.required "object" .text .nil)
      (fun (object, ()) => .remove object)
      (fun | .remove object => some (object, ()) | _ => none) <|
    .cons "play" "struct variant SceneOp::Play"
      (.required "animations" (.list Animation.schema) <| .required "run_time" .real .nil)
      (fun (animations, runTime, ()) => .play animations runTime)
      (fun | .play animations runTime => some (animations, runTime, ()) | _ => none) <|
    .cons "wait" "struct variant SceneOp::Wait" (.required "duration" .real .nil)
      (fun (duration, ()) => .wait duration)
      (fun | .wait duration => some (duration, ()) | _ => none)
    .nil

def isPlay : StageOp → Bool
  | play .. => true
  | _ => false

end StageOp

/--
What a show can be played on: a state `σ` that objects are put on and taken from, on which they are
animated, and which knows how many seconds have been played.
-/
class Stage (σ : Type) where
  add : σ → String → σ
  remove : σ → String → σ
  play : σ → List Animation → Float → σ
  wait : σ → Float → σ
  elapsed : σ → Float

namespace Stage

variable {σ : Type} [Stage σ]

def perform (stage : σ) : StageOp → σ
  | .add object => add stage object
  | .remove object => remove stage object
  | .play animations runTime => play stage animations runTime
  | .wait duration => wait stage duration

end Stage

end Stagecraft
