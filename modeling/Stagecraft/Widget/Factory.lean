import Stagecraft.Widget.Stock

/-!
This module contains the making of widgets by the names of their types. A type is registered once;
whatever goes wrong while a widget is made is an error that names a widget.
-/

namespace Stagecraft

abbrev Constructor (ω : Type) := String → Table Value → Except Error ω

/--
The types of widgets that can be made.
-/
structure Factory (ω : Type) where
  constructors : Table (Constructor ω) := .empty

namespace Factory

variable {ω ω' : Type}

def stock : Factory StockWidget where
  constructors := .ofList
    [("grid", fun name params => .grid <$> Grid.ofParams name params),
      ("queue", fun name params => .queue <$> Queue.ofParams name params),
      ("stack", fun name _ => .ok (.stack { name })),
      ("counter", fun name _ => .ok (.counter { name }))]

def map (f : ω → ω') (factory : Factory ω) : Factory ω' where
  constructors := factory.constructors.map fun _ make name params => f <$> make name params

def register (factory : Factory ω) (kind : String) (make : Constructor ω) :
    Except Error (Factory ω) :=
  if factory.constructors.contains kind then
    .error (.config (.typeRegistered kind))
  else
    .ok { constructors := factory.constructors.insert kind make }

def kinds (factory : Factory ω) : List String := factory.constructors.keys

def describe (factory : Factory ω) : String :=
  description "WidgetFactory" [("kinds", quotedList factory.kinds)]

def build (factory : Factory ω) (name kind : String) (params : Table Value) : Except Error ω :=
  match factory.constructors.get? kind with
  | none => .error (.instantiation name s!"unknown widget type `{kind}`")
  | some make =>
    match make name params with
    | .ok widget => .ok widget
    | .error (.instantiation inner reason) => .error (.instantiation inner reason)
    | .error error => .error (.instantiation name error.message)

end Factory

end Stagecraft
