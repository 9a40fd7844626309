import Stagecraft.Document.Node

/-!
This module contains the two readers of documents that take anything: one passes over a document
(`Node.skipFault`), the other takes it as a value (`Node.toValue`). They differ in what they object
to: only the second asks for the values of numbers and characters, and only it counts how deep
containers stand in each other.
-/

namespace Stagecraft

/--
Where a document comes from. Text may be nested: `room` more containers can be opened. Values that
are in memory already have no such limit; `buffer` marks those that had to be set aside before it
was known how they are to be read.
-/
inductive Source where
  | text (room : Nat)
  | value
  | buffer
  deriving DecidableEq, Repr

def Source.limit : Nat := 127

def Source.enter : Source → Except Fault Source
  | .text 0 => .error (.malformed .tooDeep)
  | .text (room + 1) => .ok (.text room)
  | source => .ok source

def Node.name : Node → Except Fault String
  | .leaf (.text name) => .ok name
  | .leaf (.broken true read _) => .error read
  | .missing fault => .error fault
  | _ => .error (.malformed .badKey)

/--
What a reader that passes over a key objects to. Where a key should follow a comma, it misses the
key, whatever is there instead.
-/
def Node.skipNameFault : Node → Option Fault
  | .leaf (.text _) => none
  | .leaf (.broken true _ skip) => skip
  | .missing (.truncated _) => some (.truncated .object)
  | .missing (.malformed .noMemberSeparator) => some (.malformed .noMemberSeparator)
  | _ => some (.malformed .badKey)

def endFault (closed : Bool) (span : Span) : Option Fault :=
  if closed then none else some (.truncated span)

mutual

/--
What a reader that passes over a document objects to, if it does. It knows no trailing commas: it
misses the value that should follow.
-/
def Node.skipFault : Node → Option Fault
  | .leaf (.broken _ _ skip) => skip
  | .leaf _ => none
  | .array items closed => (Node.skipItems items).or (endFault closed .list)
  | .object members closed => (Node.skipMembers members).or (endFault closed .object)
  | .missing (.malformed .trailingComma) => some (.malformed .noValue)
  | .missing fault => some fault

def Node.skipItems : List Node → Option Fault
  | [] => none
  | item :: rest => item.skipFault.or (Node.skipItems rest)

def Node.skipMembers : List (Node × Node) → Option Fault
  | [] => none
  | (key, value) :: rest => (key.skipNameFault.or value.skipFault).or (Node.skipMembers rest)

end

def check : Option Fault → Except Fault Unit
  | none => .ok ()
  | some fault => .error fault

mutual

/--
The value that a document stands for. Of a name that occurs twice in an object the last value is
taken.
-/
def Node.toValue (source : Source) : Node → Except Fault Value
  | .leaf .null => .ok .null
  | .leaf (.flag b) => .ok (.flag b)
  | .leaf (.number n) => .ok (.number n)
  | .leaf (.text s) => .ok (.text s)
  | .leaf (.broken _ read _) => .error read
  | .array items closed => do
    let items ← Node.toValues (← source.enter) items
    check (endFault closed .list)
    return .array items
  | .object members closed => do
    let members ← Node.toMembers (← source.enter) .empty members
    check (endFault closed .object)
    return .object members
  | .missing fault => .error fault

def Node.toValues (source : Source) : List Node → Except Fault (List Value)
  | [] => .ok []
  | item :: rest => do
    let value ← item.toValue source
    return value :: (← Node.toValues source rest)

def Node.toMembers (source : Source) (before : Table Value) :
    List (Node × Node) → Except Fault (Table Value)
  | [] => .ok before
  | (key, value) :: rest => do
    let name ← key.name
    let value ← value.toValue source
    Node.toMembers source (before.insert name value) rest

end

end Stagecraft
