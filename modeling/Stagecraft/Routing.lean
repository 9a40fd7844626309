import Stagecraft.Binding

/-!
This module contains the routing of events: for each kind of event the bindings that it is delivered
to, in the order in which they were declared.
-/

namespace Stagecraft

structure Routing where
  routes : Table (List Binding) := .empty

namespace Routing

def ofSpecs (specs : Table (List BindingSpec)) : Routing where
  routes := specs.map fun _ specs => specs.map .parse

def bind (r : Routing) (kind : String) (spec : BindingSpec) : Routing where
  routes := r.routes.insert kind ((r.routes.get? kind).getD [] ++ [.parse spec])

def bindings? (r : Routing) (kind : String) : Option (List Binding) := r.routes.get? kind

/--
All bindings with the kinds of events they are for, in the order of the kinds and, for each kind, as
they were declared.
-/
def bindings (r : Routing) : List (String × Binding) :=
  r.routes.toList.flatMap fun (kind, bindings) => bindings.map (kind, ·)

def malformed (r : Routing) : List (String × Binding) := r.bindings.filter (·.2.isMalformed)

def referenced (r : Routing) : List String := r.bindings.filterMap (·.2.widget?)

end Routing

end Stagecraft
