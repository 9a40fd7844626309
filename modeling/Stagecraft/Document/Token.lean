import Stagecraft.Document.Fault

/-!
This module contains the tokens of documents. Where the text of a token cannot be used, the token
says so and keeps the reasons: a number that is too large, for instance, is no obstacle for a reader
that passes over it.
-/

namespace Stagecraft

/--
A value without parts, as it stands in a text. A broken one fails with `read` when its value is
asked for, and with `skip`, if that is given, when it is passed over.
-/
inductive Leaf where
  | null
  | flag (value : Bool)
  | number (value : Number)
  | text (value : String)
  | broken (quoted : Bool) (read : Fault) (skip : Option Fault)

inductive Token where
  | openArray
  | closeArray
  | openObject
  | closeObject
  | comma
  | colon
  | leaf (leaf : Leaf)
  /--
  A character with which no token begins. Nothing is read after it.
  -/
  | stray

end Stagecraft
