import Stagecraft.Document.Schema.Reader
import Stagecraft.Document.Schema.Writer

/-!
This module contains bindings: which method of which widget an event is delivered to. In documents a
binding is a target `widget.method`, with or without parameters; a target of any other form is kept
as it is, so that it can be reported.
-/

namespace Stagecraft

/--
A binding as it is written.
-/
inductive BindingSpec where
  | bare (target : String)
  | detailed (target : String) (params : Table Value)

namespace BindingSpec

def schema : Schema BindingSpec :=
  .either "BindingSpec" .bare
    (.required "target" .text <| .defaulted "params" .empty (.table .value) .nil)
    (fun (target, params, ()) => .detailed target params)
    (fun
      | .bare target => .inl target
      | .detailed target params => .inr (target, params, ()))

def target : BindingSpec → String
  | bare target => target
  | detailed target _ => target

/--
The parameters; a bare target has none.
-/
def params : BindingSpec → Table Value
  | bare _ => .empty
  | detailed _ params => params

end BindingSpec

/--
A binding as it is used.
-/
inductive Binding where
  | method (widget method : String) (params : Table Value)
  | malformed (raw : String)

namespace Binding

/--
The two parts of a target that are divided by its only point. Neither may be empty.
-/
def parts? (target : String) : Option (String × String) :=
  let widget := target.toList.takeWhile (· ≠ '.')
  let method := (target.toList.dropWhile (· ≠ '.')).tail
  if widget = [] ∨ method = [] ∨ '.' ∈ method then
    none
  else
    some (String.ofList widget, String.ofList method)

def parse (spec : BindingSpec) : Binding :=
  match parts? spec.target with
  | some (widget, name) => .method widget name spec.params
  | none => .malformed spec.target

def isMalformed : Binding → Bool
  | method .. => false
  | malformed _ => true

def label : Binding → String
  | method widget name _ => widget ++ "." ++ name
  | malformed raw => raw

def widget? : Binding → Option String
  | method widget _ _ => some widget
  | malformed _ => none

def duration? : Binding → Option Float
  | method _ _ params =>
    match (params.get? "duration").bind (·.toFloat?) with
    | some seconds => if seconds.isFinite ∧ 0 ≤ seconds then some seconds else none
    | none => none
  | malformed _ => none

end Binding

end Stagecraft
