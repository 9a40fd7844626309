import Stagecraft.Document.Number
import Stagecraft.Table

/-!
This module contains the values that documents can hold.
-/

namespace Stagecraft

/--
A value in a document.
-/
inductive Value where
  | null
  | flag (value : Bool)
  | number (value : Number)
  | text (value : String)
  | array (items : List Value)
  | object (members : Entries Value none)

namespace Value

/--
The value of a whole number that is not negative. A double is never taken for one.
-/
def toIndex? : Value → Option UInt64
  | .number n => n.toIndex?
  | _ => none

def toFloat? : Value → Option Float
  | .number n => some n.toFloat
  | _ => none

def toText? : Value → Option String
  | .text s => some s
  | _ => none

/--
The member of an object under `name`. Other values have no members.
-/
def member? : Value → String → Option Value
  | .object members, name => members.get? name
  | _, _ => none

def ofIndex (n : UInt64) : Value := .number (.ofIndex n)

def ofMembers (members : List (String × Value)) : Value := .object (Table.ofList members)

end Value

end Stagecraft
