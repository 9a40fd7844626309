import Stagecraft.Document.Schema.Reader
import Stagecraft.Document.Schema.Writer
import Stagecraft.Error

/-!
This module contains the timing of a show: how long actions of each kind take, and by how much each
mode stretches them. What is read from a document need not make sense; `Timing.validate` finds the
first thing that does not.
-/

namespace Stagecraft

/--
The kinds of actions that are timed alike.
-/
inductive Bucket where
  | ui
  | events
  | effects
  deriving DecidableEq, Repr

namespace Bucket

def all : List Bucket := [ui, events, effects]

def name : Bucket → String
  | ui => "ui"
  | events => "events"
  | effects => "effects"

def schema : Schema Bucket := .choice all name

def known : List (String × Bucket) :=
  [("show_title", ui), ("show_text", ui), ("setup_scene", ui), ("setup_widgets", ui), ("outro", ui),
    ("play_events", events), ("enqueue", events), ("dequeue", events), ("push", events),
    ("pop", events), ("visit", events), ("relax", events), ("goal_found", events),
    ("highlight", effects), ("pulse", effects), ("trace_path", effects), ("celebrate", effects)]

/--
The bucket of an action by its name. Whatever is not known counts as `ui`.
-/
def ofName (action : String) : Bucket := (known.lookup action).getD ui

end Bucket

/--
Seconds for each bucket and for pauses, the factors of the modes, and the mode to play in.
-/
structure Timing where
  ui : Float := 1.0
  events : Float := 0.6
  effects : Float := 0.8
  waits : Float := 0.5
  multipliers : Table Float := .ofList [("draft", 0.5), ("normal", 1.0), ("fast", 0.25)]
  mode : String := "normal"
  /--
  Buckets of single actions, which come before those that are known.
  -/
  buckets : Table Bucket := .empty

/--
Fails unless `value` is a positive number.
-/
def ensurePositive (name : String) (value : Float) : Except Error Unit :=
  if value.isFinite ∧ 0 < value then
    .ok ()
  else
    .error (.config (.notPositive name value))

namespace Timing

def schema : Schema Timing :=
  .record "struct TimingConfig"
    (.defaulted "ui" ({} : Timing).ui .real <|
      .defaulted "events" ({} : Timing).events .real <|
      .defaulted "effects" ({} : Timing).effects .real <|
      .defaulted "waits" ({} : Timing).waits .real <|
      .defaulted "multipliers" ({} : Timing).multipliers (.table .real) <|
      .defaulted "mode" ({} : Timing).mode .text <|
      .defaulted "buckets" ({} : Timing).buckets (.table Bucket.schema) .nil)
    (fun (ui, events, effects, waits, multipliers, mode, buckets, ()) =>
      { ui, events, effects, waits, multipliers, mode, buckets })
    (fun t => (t.ui, t.events, t.effects, t.waits, t.multipliers, t.mode, t.buckets, ()))

def base (t : Timing) : Bucket → Float
  | .ui => t.ui
  | .events => t.events
  | .effects => t.effects

def multiplier (t : Timing) (mode : String) : Except Error Float :=
  match t.multipliers.get? mode with
  | some factor => .ok factor
  | none => .error (.config (.unknownMode mode t.multipliers.keys))

def validate (t : Timing) : Except Error Unit := do
  ensurePositive "ui" t.ui
  ensurePositive "events" t.events
  ensurePositive "effects" t.effects
  ensurePositive "waits" t.waits
  t.multipliers.toList.forM fun (mode, factor) => ensurePositive s!"multiplier `{mode}`" factor
  discard (t.multiplier t.mode)

def withMode (t : Timing) (mode : String) : Except Error Timing := do
  let t := { t with mode }
  t.validate
  return t

end Timing

end Stagecraft
