import Stagecraft.Document.Schema.Reader
import Stagecraft.Document.Schema.Writer

/-!
This module contains the events that an algorithm emits, what they are taken from, and the numbering
of their steps. Steps are numbered as events are taken from a stream, whatever the events said
before.
-/

namespace Stagecraft

/--
One unit of progress of an algorithm.
-/
structure Event where
  kind : String
  payload : Table Value := .empty
  step : UInt64 := 0
  metadata : Option (Table Value) := none

namespace Event

def schema : Schema Event :=
  .record "struct VizEvent"
    (.required ⟨"type", ["kind"]⟩ .text <|
      .defaulted "payload" .empty (.table .value) <|
      .defaulted "step" 0 .index <|
      .optional "metadata" (.table .value) .nil)
    (fun (kind, payload, step, metadata, ()) => { kind, payload, step, metadata })
    (fun e => (e.kind, e.payload, e.step, e.metadata, ()))

def withPayload (e : Event) (name : String) (value : Value) : Event :=
  { e with payload := e.payload.insert name value }

def withMetadata (e : Event) (name : String) (value : Value) : Event :=
  { e with metadata := some ((e.metadata.getD .empty).insert name value) }

/--
The element that the event is about: what the payload calls `node`, else the whole payload.
-/
def element (e : Event) : Value := (e.payload.get? "node").getD (.object e.payload)

def numbered (events : List Event) : List Event :=
  events.mapIdx fun place event => { event with step := .ofNat place }

end Event

/--
What events can be taken from, one after the other.
-/
class EventSource (ι : Type) where
  next? : ι → Option (Event × ι)
  /--
  The number of events still to come.
  -/
  remaining : ι → Nat

instance : EventSource (List Event) where
  next?
    | [] => none
    | event :: rest => some (event, rest)
  remaining := List.length

/--
A stream of events that numbers each one as it is taken: what it takes them from, and the number of
those that have been taken.
-/
structure EventStream (ι : Type := List Event) where
  ahead : ι
  taken : Nat := 0

namespace EventStream

variable {ι : Type} [EventSource ι]

def next? (s : EventStream ι) : Option (Event × EventStream ι) :=
  match EventSource.next? s.ahead with
  | none => none
  | some (event, ahead) =>
    some ({ event with step := .ofNat s.taken }, { ahead, taken := s.taken + 1 })

def remaining (s : EventStream ι) : Nat := EventSource.remaining s.ahead

def toList (s : EventStream) : List Event :=
  s.ahead.mapIdx fun place event => { event with step := .ofNat (s.taken + place) }

end EventStream

instance {ι : Type} [EventSource ι] : EventSource (EventStream ι) where
  next? := EventStream.next?
  remaining := EventStream.remaining

end Stagecraft
