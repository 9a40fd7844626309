import Stagecraft.CommandLine
import Stagecraft.Error.Report
import Stagecraft.Rendering

/-!
This module contains what commands come to: what they say, which files they write, and how they end.
A rendering that fails writes no files.
-/

namespace Stagecraft

structure Outcome where
  status : UInt32
  lines : List String := []
  /--
  What is said about a failure.
  -/
  complaint : String := ""
  /--
  The files to write, as paths and texts.
  -/
  files : List (String × String) := []

namespace Outcome

def ofError (error : Error) : Outcome where
  status := 1
  complaint := "Error: " ++ error.report ++ "\n"

def ofRendering (exports : Exports) (r : Rendering) : Outcome where
  status := 0
  lines := r.log
  files := (exports.csv.map (·, r.tracker.csv)).toList ++
    (exports.json.map (·, r.tracker.json)).toList

def actions : Outcome where
  status := 0
  lines := (Registry.builtins : Registry StockWidget Rehearsal).names

def misused : Outcome where
  status := 2
  complaint := Command.usage ++ "\n"

end Outcome

def Script.outcome (s : Script) (exports : Exports) : Outcome :=
  match s.render with
  | .ok r => .ofRendering exports r
  | .error error => .ofError error

end Stagecraft
