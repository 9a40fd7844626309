import Stagecraft.Action.Builtin

/-!
This module contains the registry of actions. A name is registered once; only clearing the registry
frees it.
-/

namespace Stagecraft

structure Registry (ω σ : Type) where
  actions : Table (Action ω σ) := .empty

namespace Registry

variable {ω σ : Type}

def builtins [Widget ω] [Stage σ] : Registry ω σ where
  actions := .ofList (Builtin.all.map fun builtin => (builtin.name, builtin.action))

def register (r : Registry ω σ) (name : String) (action : Action ω σ) :
    Except RegistryError (Registry ω σ) :=
  if r.actions.contains name then
    .error (.alreadyRegistered name)
  else
    .ok { actions := r.actions.insert name action }

def names (r : Registry ω σ) : List String := r.actions.keys

def find (r : Registry ω σ) (name : String) : Except RegistryError (Action ω σ) :=
  match r.actions.get? name with
  | some action => .ok action
  | none => .error (.notRegistered name r.names)

def contains (r : Registry ω σ) (name : String) : Bool := r.actions.contains name

def size (r : Registry ω σ) : Nat := r.actions.size

def isEmpty (r : Registry ω σ) : Bool := r.actions.isEmpty

def clear (_ : Registry ω σ) : Registry ω σ := {}

def describe (r : Registry ω σ) : String :=
  description "ActionRegistry" [("actions", quotedList r.names)]

end Registry

end Stagecraft
