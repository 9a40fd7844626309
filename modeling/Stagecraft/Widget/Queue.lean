import Stagecraft.Widget.Basic

/-!
This module contains the queue: what came first leaves first. It can have a capacity.
-/

namespace Stagecraft

structure Queue where
  name : String
  /--
  The items, the one that leaves next first.
  -/
  items : List Value := []
  capacity : Option UInt64 := none

namespace Queue

def ofParams (name : String) (params : Table Value) : Except Error Queue := do
  match params.get? "capacity" with
  | none | some .null => return { name }
  | some _ => return { name, capacity := some (← positiveParam params "capacity" 1) }

def isFull (q : Queue) : Bool := q.capacity.any fun capacity => capacity.toNat ≤ q.items.length

open Handler in
def handle {σ : Type} [Stage σ] (method : String) (event : Event) (runTime : Float) :
    Handler (Queue × σ) Unit := do
  let q ← widget
  match method with
  | "onEnqueue" =>
    if q.isFull then
      refuse (.queueFull q.name)
    setWidget { q with items := q.items ++ [event.element] }
    play { target := q.name, effect := "append" } runTime
  | "onDequeue" =>
    match q.items with
    | [] => refuse (.queueEmpty q.name)
    | _ :: items => setWidget { q with items }
    play { target := q.name, effect := "shift" } runTime
  | method => refuse (.noMethod q.name method)

instance : Widget Queue where
  kind _ := "queue"
  update q method event runTime stage := .ofHandler (handle method event runTime) q stage
  snapshot q := .ofMembers [("items", .array q.items)]

end Queue

end Stagecraft
