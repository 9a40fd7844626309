import Stagecraft.Timing

/-!
This module contains the tempo of a show: its timing together with the factor of the mode it is
played in, and the durations that follow.
-/

namespace Stagecraft

/--
A timing and the factor of its mode.
-/
structure Tempo where
  timing : Timing
  factor : Float

namespace Tempo

def ofTiming (timing : Timing) : Except Error Tempo := do
  timing.validate
  return { timing, factor := ← timing.multiplier timing.mode }

def standard : Tempo where
  timing := {}
  factor := 1.0

def mode (t : Tempo) : String := t.timing.mode

def bucket (t : Tempo) (action : String) : Bucket :=
  (t.timing.buckets.get? action).getD (.ofName action)

def multiplier (t : Tempo) : Option String → Except Error Float
  | some mode => t.timing.multiplier mode
  | none => .ok t.factor

def actionTime (t : Tempo) (action : String) (mode : Option String) : Except Error Float := do
  return t.timing.base (t.bucket action) * (← t.multiplier mode)

def runTime (t : Tempo) (action : String) : Float := t.timing.base (t.bucket action) * t.factor

def pauseTime (t : Tempo) (mode : Option String) : Except Error Float := do
  return t.timing.waits * (← t.multiplier mode)

end Tempo

end Stagecraft
