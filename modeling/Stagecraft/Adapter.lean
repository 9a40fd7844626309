import Stagecraft.Error
import Stagecraft.Event

/-!
This module contains the sources of events. The scripted one plays events that have been written
down, either beforehand or in the scenario.
-/

namespace Stagecraft

/--
The bridge to an algorithm: from a scenario it makes the events to play.
-/
structure Adapter where
  name : String
  run : Value → Except Error (List Event)

namespace Adapter

/--
The events that a scenario lists. A scenario without a list has none; a list with anything in it
that is no event is refused as a whole.
-/
def listed (scenario : Value) : Except Error (List Event) :=
  match scenario.member? "events" with
  | none | some .null => .ok []
  | some (.array items) =>
    ((Schema.list Event.schema).decodeValue (.array items)).mapError .document
  | some _ => .error (.action .eventsNotArray)

/--
Plays `events`, if they are given, else those of the scenario.
-/
def scripted (events : Option (List Event) := none) : Adapter where
  name := "scripted"
  run scenario :=
    match events with
    | some events => .ok events
    | none => listed scenario

end Adapter

end Stagecraft
