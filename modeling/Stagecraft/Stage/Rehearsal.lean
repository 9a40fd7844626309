import Stagecraft.Stage.Basic
import Stagecraft.Stage.Clock

/-!
This module contains the stage for dry runs. It writes down everything that is done on it and knows
what stands on it and how much time has gone by.
-/

namespace Stagecraft

structure Rehearsal where
  /--
  Everything that was done, in order.
  -/
  ops : List StageOp := []
  /--
  What stands on the stage, in the order in which it came.
  -/
  objects : List String := []
  clock : Clock := {}

namespace Rehearsal

def contains (r : Rehearsal) (object : String) : Bool := r.objects.contains object

def log (r : Rehearsal) (op : StageOp) : Rehearsal := { r with ops := r.ops ++ [op] }

instance : Stage Rehearsal where
  add r object :=
    let objects := if r.contains object then r.objects else r.objects ++ [object]
    { r with objects }.log (.add object)
  remove r object := { r with objects := r.objects.filter (· ≠ object) }.log (.remove object)
  play r animations runTime :=
    { r with clock := r.clock.advance runTime }.log (.play animations runTime)
  wait r duration := { r with clock := r.clock.advance duration }.log (.wait duration)
  elapsed r := r.clock.seconds

def playCount (r : Rehearsal) : Nat := r.ops.countP (·.isPlay)

end Rehearsal

end Stagecraft
