import Stagecraft.Error

/-!
This module contains how things are done step by step. What was done before a step fails is not
undone.
-/

namespace Stagecraft

/--
Steps that read and change a state, and may fail on the way.
-/
abbrev Handler (state α : Type) := ExceptT Error (StateM state) α

/--
Takes all steps, or those up to the one that fails.
-/
def Handler.on {state α : Type} (handler : Handler state α) (s : state) : Except Error α × state :=
  StateT.run (ExceptT.run handler) s

end Stagecraft
