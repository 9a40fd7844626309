import Stagecraft.Document.Schema.Reader
import Stagecraft.Document.Schema.Writer

/-!
This module contains the clock of a stage. It never goes back, and it stands still for durations
that are no positive numbers.
-/

namespace Stagecraft

/--
The seconds that have been played.
-/
structure Clock where
  seconds : Float := 0.0

namespace Clock

def schema : Schema Clock :=
  .record "struct PlaybackClock" (.required "time_seconds" .real .nil)
    (fun (seconds, ()) => { seconds })
    (fun c => (c.seconds, ()))

def advance (c : Clock) (delta : Float) : Clock :=
  if delta.isFinite ∧ 0 < delta then { seconds := c.seconds + delta } else c

end Clock

end Stagecraft
