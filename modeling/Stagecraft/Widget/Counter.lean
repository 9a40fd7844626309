import Stagecraft.Widget.Basic

/-!
This module contains the counter, a tally of events.
-/

namespace Stagecraft

structure Counter where
  name : String
  count : UInt64 := 0

namespace Counter

open Handler in
/--
Handles a method. All changes are shown alike.
-/
def handle {σ : Type} [Stage σ] (method : String) (runTime : Float) :
    Handler (Counter × σ) Unit := do
  let c ← widget
  match method with
  | "onEvent" => setWidget { c with count := c.count + 1 }
  | "onReset" => setWidget { c with count := 0 }
  | method => refuse (.noMethod c.name method)
  play { target := c.name, effect := "count" } runTime

instance : Widget Counter where
  kind _ := "counter"
  update c method _ runTime stage := .ofHandler (handle method runTime) c stage
  snapshot c := .ofMembers [("count", .ofIndex c.count)]

end Counter

end Stagecraft
