import Stagecraft.Document.Value

/-!
This module contains schemas. A schema says how the values of one type are written in documents; it
is data, from which both a reader and a writer are derived.
-/

namespace Stagecraft

/--
The name of a field, and other names under which it is read.
-/
structure FieldName where
  main : String
  aliases : List String := []

instance : Coe String FieldName := ⟨fun main => { main }⟩

mutual

/--
How the values of a type are written in documents.
-/
inductive Schema : Type → Type 1 where
  | text : Schema String
  | flag : Schema Bool
  | real : Schema Float
  /--
  A whole number of 64 bits that is not negative.
  -/
  | index : Schema UInt64
  | value : Schema Value
  | list {α : Type} (item : Schema α) : Schema (List α)
  | table {α : Type} (item : Schema α) : Schema (Table α)
  /--
  A value or `null`.
  -/
  | optional {α : Type} (item : Schema α) : Schema (Option α)
  /--
  One of a few names.
  -/
  | choice {α : Type} (all : List α) (name : α → String) : Schema α
  /--
  An object with fixed names, or a list of its values in the order of the fields.
  -/
  | record {α ρ σ : Type} (type : String) (fields : Fields ρ σ) (make : ρ → α) (view : α → ρ) :
    Schema α
  /--
  A record whose fields depend on the member called `tag`. As a list it begins with the tag.
  -/
  | tagged {α : Type} (type : String) (tag : String) (variants : Variants α) : Schema α
  /--
  Text, or an object with fixed names.
  -/
  | either {α ρ σ : Type} (type : String) (ofText : String → α) (fields : Fields ρ σ)
    (make : ρ → α) (view : α → String ⊕ ρ) : Schema α

/--
The fields of a record with the values `ρ`. While a record is read, `σ` holds the values found so
far.
-/
inductive Fields : Type → Type → Type 1 where
  | nil : Fields Unit Unit
  /--
  If a field does not occur, its value is `absent`; values with `omitted` are not written.
  -/
  | cons {α ρ σ : Type} (name : FieldName) (absent : Option α) (omitted : α → Bool)
    (schema : Schema α) (rest : Fields ρ σ) : Fields (α × ρ) (Option α × σ)

/--
The alternatives of a tagged record.
-/
inductive Variants : Type → Type 1 where
  | nil {α : Type} : Variants α
  | cons {α ρ σ : Type} (name : String) (type : String) (fields : Fields ρ σ) (make : ρ → α)
    (view : α → Option ρ) (rest : Variants α) : Variants α

end

namespace Fields

variable {α ρ σ : Type}

def required (name : FieldName) (schema : Schema α) (rest : Fields ρ σ) :
    Fields (α × ρ) (Option α × σ) :=
  .cons name none (fun _ => false) schema rest

/--
A field that has the value `default` where it does not occur.
-/
def defaulted (name : FieldName) (default : α) (schema : Schema α) (rest : Fields ρ σ) :
    Fields (α × ρ) (Option α × σ) :=
  .cons name (some default) (fun _ => false) schema rest

/--
A field that may have no value. It is not written then.
-/
def optional (name : FieldName) (schema : Schema α) (rest : Fields ρ σ) :
    Fields (Option α × ρ) (Option (Option α) × σ) :=
  .cons name (some none) Option.isNone (.optional schema) rest

def count : {ρ σ : Type} → Fields ρ σ → Nat
  | _, _, .nil => 0
  | _, _, .cons _ _ _ _ rest => rest.count + 1

def blank : {ρ σ : Type} → Fields ρ σ → σ
  | _, _, .nil => ()
  | _, _, .cons _ _ _ _ rest => (none, rest.blank)

end Fields

def Variants.names : {α : Type} → Variants α → List String
  | _, .nil => []
  | _, .cons name _ _ _ _ rest => name :: rest.names

end Stagecraft
