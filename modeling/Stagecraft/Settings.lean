import Stagecraft.Timing

/-!
This module contains the settings of a rendering.
-/

namespace Stagecraft

structure Settings where
  timing : Timing := {}
  /--
  Refuse scenes with bindings that name no method of a widget, instead of passing over them while
  events are played.
  -/
  strictBindings : Bool := false

namespace Settings

def schema : Schema Settings :=
  .record "struct AppConfig"
    (.defaulted "timing" {} Timing.schema <|
      .defaulted "strict_bindings" false .flag .nil)
    (fun (timing, strictBindings, ()) => { timing, strictBindings })
    (fun s => (s.timing, s.strictBindings, ()))

def ofText (text : String) : Except Error Settings := do
  let settings ← (schema.decode text).mapError .document
  settings.timing.validate
  return settings

end Settings

end Stagecraft
