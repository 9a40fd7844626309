/-!
This module contains the command line: what can be asked for, and how arguments say so.
-/

namespace Stagecraft

/--
The files that timings are written to, by their paths.
-/
structure Exports where
  csv : Option String := none
  json : Option String := none

/--
The files that a rendering reads and writes, by their paths, and the mode to play in.
-/
structure RenderOptions where
  scene : String
  storyboard : Option String := none
  scenario : Option String := none
  settings : Option String := none
  mode : Option String := none
  exports : Exports := {}

inductive Command where
  | render (options : RenderOptions)
  /--
  List the built-in actions.
  -/
  | actions

namespace Command

/--
The options of a rendering. An option can have a short name of one letter.
-/
def optionNames : List (String × Option Char) :=
  [("scene", some 's'), ("storyboard", some 'b'), ("scenario", none), ("config", some 'c'),
    ("mode", some 'm'), ("timings-csv", none), ("timings-json", none)]

def option? (argument : String) : Option (String × Option String) :=
  match argument.toList with
  | '-' :: '-' :: rest =>
    let name := String.ofList (rest.takeWhile (· ≠ '='))
    let value := match rest.dropWhile (· ≠ '=') with
      | [] => none
      | _ :: value => some (String.ofList value)
    if (optionNames.lookup name).isSome then some (name, value) else none
  | '-' :: letter :: rest =>
    let value := match rest with
      | [] => none
      | '=' :: value => some (String.ofList value)
      | value => some (String.ofList value)
    (optionNames.find? (·.2 = some letter)).map fun (name, _) => (name, value)
  | _ => none

def assignments? : List String → List (String × String) → Option (List (String × String))
  | [], found => some found
  | argument :: rest, found =>
    match option? argument with
    | none => none
    | some (name, value) =>
      if (found.lookup name).isSome then
        none
      else match value, rest with
        | some value, rest => assignments? rest ((name, value) :: found)
        | none, value :: rest => assignments? rest ((name, value) :: found)
        | none, [] => none

def ofArguments? : List String → Option Command
  | ["actions"] => some .actions
  | "render" :: arguments => do
    let found ← assignments? arguments []
    return .render {
      scene := ← found.lookup "scene"
      storyboard := found.lookup "storyboard"
      scenario := found.lookup "scenario"
      settings := found.lookup "config"
      mode := found.lookup "mode"
      exports := { csv := found.lookup "timings-csv", json := found.lookup "timings-json" } }
  | _ => none

def usage : String :=
  "usage: render --scene FILE [--storyboard FILE] [--scenario FILE] [--config FILE] " ++
    "[--mode MODE] [--timings-csv FILE] [--timings-json FILE] | actions"

end Command

end Stagecraft
