import Stagecraft.Outcome

/-!
This module contains the program: it reads the files of a command and does what the command comes
to.
-/

namespace Stagecraft

def readFile? (path : String) : IO File := do
  try
    return some (← IO.FS.readFile path)
  catch _ =>
    return none

def readScript (options : RenderOptions) : IO Script := do
  return {
    scene := ← readFile? options.scene
    storyboard := ← options.storyboard.mapM readFile?
    scenario := ← options.scenario.mapM readFile?
    settings := ← options.settings.mapM readFile?
    mode := options.mode }

def outcome : Option Command → IO Outcome
  | some (.render options) => return (← readScript options).outcome options.exports
  | some .actions => return .actions
  | none => return .misused

def perform (outcome : Outcome) : IO UInt32 := do
  outcome.lines.forM IO.println
  outcome.files.forM fun (path, text) => IO.FS.writeFile path text
  IO.eprint outcome.complaint
  return outcome.status

end Stagecraft

open Stagecraft in
def main (arguments : List String) : IO UInt32 := do
  perform (← outcome (Command.ofArguments? arguments))
