import Stagecraft.Proofs.Tempo.Validation

/-!
This module contains how long actions and pauses take, by the tables of a timing: a base, times the
factor of a mode. A tempo looks up the factor of its own mode only once, and comes to the same.
-/

namespace Stagecraft

namespace Timing

/--
What takes `base` seconds takes that times the factor of the mode, if there is such a mode.
-/
def scaled (t : Timing) (base : Float) (mode : String) : Except Error Float :=
  match t.multipliers.get? mode with
  | some factor => .ok (base * factor)
  | none => .error (.config (.unknownMode mode t.multipliers.keys))

variable {t : Timing}

end Timing

namespace Tempo

variable {timing : Timing} {t : Tempo}

end Tempo

end Stagecraft
