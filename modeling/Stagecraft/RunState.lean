/-!
This module contains the states that the playing of a storyboard goes through.
-/

namespace Stagecraft

inductive RunState where
  | notStarted
  | running
  | completed
  | failed
  deriving DecidableEq, Repr

namespace RunState

def name : RunState → String
  | notStarted => "not_started"
  | running => "running"
  | completed => "completed"
  | failed => "failed"

def label : RunState → String
  | notStarted => "NotStarted"
  | running => "Running"
  | completed => "Completed"
  | failed => "Failed"

end RunState

end Stagecraft
