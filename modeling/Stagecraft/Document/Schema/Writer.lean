import Stagecraft.Document.Printer
import Stagecraft.Document.Schema.Basic

/-!
This module contains the writing of values as documents by schemas.
-/

namespace Stagecraft

mutual

/--
The document for a value. A record is written as an object, in the order of its fields.
-/
def Schema.write : {α : Type} → Schema α → α → Node
  | _, .text, s => .text s
  | _, .flag, b => .flag b
  | _, .real, x => .ofFloat x
  | _, .index, n => .number (.ofIndex n)
  | _, .value, v => .ofValue v
  | _, .list item, items => .array (items.map fun a => item.write a) true
  | _, .table item, t => .object (t.toList.map fun (key, a) => (.text key, item.write a)) true
  | _, .optional item, a =>
    match a with
    | none => .null
    | some a => item.write a
  | _, .choice _ name, a => .text (name a)
  | _, .record _ fields _ view, a => .object (fields.write (view a)) true
  | _, .tagged _ tag variants, a => .object (variants.write tag a) true
  | _, .either _ _ fields _ view, a =>
    match view a with
    | .inl s => .text s
    | .inr values => .object (fields.write values) true

def Fields.write : {ρ σ : Type} → Fields ρ σ → ρ → List (Node × Node)
  | _, _, .nil, _ => []
  | _, _, .cons name _ omitted schema rest, (a, values) =>
    if omitted a then
      rest.write values
    else
      (.text name.main, schema.write a) :: rest.write values

def Variants.write : {α : Type} → Variants α → String → α → List (Node × Node)
  | _, .nil, _, _ => []
  | _, .cons name _ fields _ view rest, tag, a =>
    match view a with
    | some values => (.text tag, .text name) :: fields.write values
    | none => rest.write tag a

end

def Schema.encode {α : Type} (schema : Schema α) (a : α) (spacing : Spacing := .compact) : String :=
  (schema.write a).print spacing

end Stagecraft
