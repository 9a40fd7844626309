import Stagecraft.Widget.Basic

/-!
This module contains the stack: what came last leaves first.
-/

namespace Stagecraft

structure Stack where
  name : String
  /--
  The items, the one on top first.
  -/
  items : List Value := []

namespace Stack

open Handler in
def handle {σ : Type} [Stage σ] (method : String) (event : Event) (runTime : Float) :
    Handler (Stack × σ) Unit := do
  let s ← widget
  match method with
  | "onPush" =>
    setWidget { s with items := event.element :: s.items }
    play { target := s.name, effect := "push" } runTime
  | "onPop" =>
    match s.items with
    | [] => refuse (.stackEmpty s.name)
    | _ :: items => setWidget { s with items }
    play { target := s.name, effect := "pop" } runTime
  | method => refuse (.noMethod s.name method)

instance : Widget Stack where
  kind _ := "stack"
  update s method event runTime stage := .ofHandler (handle method event runTime) s stage
  snapshot s := .ofMembers [("items", .array s.items.reverse)]

end Stack

end Stagecraft
