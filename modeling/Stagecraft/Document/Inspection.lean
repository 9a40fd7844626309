import Stagecraft.Document.Value
import Stagecraft.Text.Quoted

/-!
This module contains the form of values in which each part says what it is.
-/

namespace Stagecraft

mutual

def Value.inspect : Value → String
  | .null => "Null"
  | .flag b => s!"Bool({b})"
  | .number n => s!"Number({n.text})"
  | .text s => s!"String({quoted s})"
  | .array items => "Array [" ++ Value.inspectItems items ++ "]"
  | .object members => "Object \x7b" ++ Value.inspectMembers members ++ "\x7d"

def Value.inspectItems : List Value → String
  | [] => ""
  | item :: rest =>
    item.inspect ++ (if rest.isEmpty then "" else ", ") ++ Value.inspectItems rest

def Value.inspectMembers : {bound : Option String} → Entries Value bound → String
  | _, .nil => ""
  | _, .cons key _ value rest =>
    quoted key ++ ": " ++ value.inspect ++ (if rest.isEmpty then "" else ", ") ++
      Value.inspectMembers rest

end

def inspectTable (t : Table Value) : String := "\x7b" ++ Value.inspectMembers t ++ "\x7d"

end Stagecraft
