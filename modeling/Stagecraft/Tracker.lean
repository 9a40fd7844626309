import Stagecraft.Document.Schema.Reader
import Stagecraft.Document.Schema.Writer

/-!
This module contains the record of how long beats were planned to take and how long they took, and
its two written forms.
-/

namespace Stagecraft

/--
The seconds of one beat.
-/
structure TimingRecord where
  action : String
  planned : Float
  actual : Float

namespace TimingRecord

def schema : Schema TimingRecord :=
  .record "struct TimingRecord"
    (.required "action" .text <| .required "planned" .real <| .required "actual" .real .nil)
    (fun (action, planned, actual, ()) => { action, planned, actual })
    (fun r => (r.action, r.planned, r.actual, ()))

def delta (r : TimingRecord) : Float := r.actual - r.planned

end TimingRecord

/--
The beats that were played, in order.
-/
structure Tracker where
  records : List TimingRecord := []

/--
The sum of some doubles from the left. The sum of none is minus zero, which changes no other sum.
-/
def sumFloats (xs : List Float) : Float := xs.foldl (· + ·) (-0.0)

namespace Csv

/--
A field of a table in text. It is quoted if it has a character that would end it.
-/
def field (s : String) : String :=
  if s.toList.any fun c => c = ',' || c = '"' || c = '\n' then
    let doubled := s.toList.flatMap fun c => if c = '"' then ['"', '"'] else [c]
    "\"" ++ String.ofList doubled ++ "\""
  else
    s

def row (fields : List String) : String := String.intercalate "," fields ++ "\n"

end Csv

namespace Tracker

def record (t : Tracker) (action : String) (planned actual : Float) : Tracker :=
  { records := t.records ++ [{ action, planned, actual }] }

def size (t : Tracker) : Nat := t.records.length

def isEmpty (t : Tracker) : Bool := t.records.isEmpty

def totalPlanned (t : Tracker) : Float := sumFloats (t.records.map (·.planned))

def totalActual (t : Tracker) : Float := sumFloats (t.records.map (·.actual))

def csv (t : Tracker) : String :=
  let row (r : TimingRecord) : String :=
    Csv.row [Csv.field r.action, fixedThree r.planned, fixedThree r.actual, fixedThree r.delta]
  Csv.row ["action", "planned", "actual", "delta"] ++ String.join (t.records.map row)

def json (t : Tracker) : String := (Schema.list TimingRecord.schema).encode t.records .indented

end Tracker

end Stagecraft
