import Stagecraft.Document.Reading
import Stagecraft.Document.Schema.Basic

/-!
This module contains the reading of documents by schemas. A document is read from its beginning to
its end, and the first fault on the way is the answer: a part of another kind than the schema asks
for is a fault where it begins, a missing field where its object ends.
-/

namespace Stagecraft

/--
The fault of a document that is of another kind than `expected`.
-/
def Node.mismatch (expected : String) : Node → Fault
  | .leaf .null => .mismatch (.wrongType .null expected)
  | .leaf (.flag b) => .mismatch (.wrongType (.flag b) expected)
  | .leaf (.number n) => .mismatch (.wrongType (.number n) expected)
  | .leaf (.text s) => .mismatch (.wrongType (.text s) expected)
  | .leaf (.broken _ read _) => read
  | .array .. => .mismatch (.wrongType .sequence expected)
  | .object .. => .mismatch (.wrongType .map expected)
  | .missing fault => fault

def Node.toIndex : Node → Except Fault UInt64
  | .leaf (.number (.integer n exact)) =>
    if n < 0 then
      .error (.mismatch (.wrongValue (.number (.integer n exact)) "usize"))
    else
      .ok (UInt64.ofNat n.toNat)
  | node => .error (node.mismatch "usize")

def Node.identifier : Node → Except Fault String
  | .leaf (.text name) => .ok name
  | node => .error (node.mismatch "variant identifier")

def Node.toUnit : Node → Except Fault Unit
  | .leaf .null => .ok ()
  | node => .error (node.mismatch "unit")

/--
The one of `all` with the name given.
-/
def chosen {α : Type} (all : List α) (name : α → String) (asked : String) : Except Fault α :=
  match all.find? (name · = asked) with
  | some a => .ok a
  | none => .error (.mismatch (.unknownVariant asked (all.map name)))

/--
Reads one of a few names: as text, or as the only name in an object whose value is `null`.
-/
def Node.toChoice {α : Type} (ofName : String → Except Fault α) (source : Source) :
    Node → Except Fault α
  | .leaf (.text name) => ofName name
  | .leaf (.broken true read _) => .error read
  | .missing fault => .error fault
  | .object members closed => do
    discard source.enter
    match members with
    | [] => .error (if closed then .malformed .noValue else .truncated .value)
    | (key, value) :: rest =>
      let a ← ofName (← key.identifier)
      value.toUnit
      if rest.isEmpty then
        check (endFault closed .object)
        return a
      else
        .error (.malformed .noValue)
  | _ => .error (.malformed .noValue)

/--
Offers the members of an object to `accept`, in order. A member that it has no use for is passed
over.
-/
def acceptAll {σ : Type} (accept : String → Node → σ → Except Fault (Option σ)) :
    List (Node × Node) → σ → Except Fault σ
  | [], found => .ok found
  | (key, value) :: rest, found => do
    let name ← key.name
    match ← accept name value found with
    | some found => acceptAll accept rest found
    | none =>
      check value.skipFault
      acceptAll accept rest found

/--
The values of a record, once its object has ended: in the order of the fields, the first that has to
occur and does not is the fault.
-/
def Fields.finish : {ρ σ : Type} → Fields ρ σ → σ → Except Fault ρ
  | _, _, .nil, _ => .ok ()
  | _, _, .cons name absent _ _ rest, (found, others) => do
    match found.or absent with
    | some a => return (a, ← rest.finish others)
    | none => .error (.mismatch (.missingField name.main))

def surplus (source : Source) (length count : Nat) : Fault :=
  match source with
  | .text _ => .malformed .trailingText
  | .value => .mismatch (.wrongLength length "fewer elements in array")
  | .buffer => .mismatch (.wrongLength length s!"{elements count} in sequence")

def finishItems {ρ : Type} (source : Source) (length count : Nat) (closed : Bool) (values : ρ) :
    List Node → Except Fault ρ
  | [] => do
    check (endFault closed .list)
    return values
  | .missing (.malformed .trailingComma) :: _ => .error (.malformed .trailingComma)
  | _ :: _ => .error (surplus source length count)

def splitTag (tag : String) (names : List String) (source : Source) :
    List (Node × Node) → Option String → Except Fault (Option String × List (Node × Node))
  | [], found => .ok (found, [])
  | (key, value) :: rest, found => do
    let name ← key.name
    if name = tag then
      if found.isSome then
        .error (.mismatch (.duplicateField tag))
      else
        let variant ← chosen names id (← value.identifier)
        splitTag tag names source rest (some variant)
    else
      discard (value.toValue source)
      let (found, others) ← splitTag tag names source rest found
      return (found, (key, value) :: others)

mutual

def Schema.read : {α : Type} → Schema α → Source → Node → Except Fault α
  | _, .text, _, node =>
    match node with
    | .leaf (.text s) => .ok s
    | node => .error (node.mismatch "a string")
  | _, .flag, _, node =>
    match node with
    | .leaf (.flag b) => .ok b
    | node => .error (node.mismatch "a boolean")
  | _, .real, _, node =>
    match node with
    | .leaf (.number n) => .ok n.toFloat
    | node => .error (node.mismatch "f64")
  | _, .index, _, node => node.toIndex
  | _, .value, source, node => node.toValue source
  | _, .list item, source, node =>
    match node with
    | .array items closed => do
      let inner ← source.enter
      let values ← items.mapM fun node => item.read inner node
      check (endFault closed .list)
      return values
    | node => .error (node.mismatch "a sequence")
  | _, .table item, source, node =>
    match node with
    | .object members closed => do
      let inner ← source.enter
      let read (key value : Node) (before : Table _) := do
        let name ← key.name
        return before.insert name (← item.read inner value)
      let values ← members.foldlM (fun before (key, value) => read key value before) .empty
      check (endFault closed .object)
      return values
    | node => .error (node.mismatch "a map")
  | _, .optional item, source, node =>
    match node with
    | .leaf .null => .ok none
    | node => some <$> item.read source node
  | _, .choice all name, source, node => node.toChoice (chosen all name) source
  | _, .record type fields make _, source, node =>
    match node with
    | .object members closed => do
      let inner ← source.enter
      let found ← acceptAll (fun name value found => fields.accept inner name value found) members
        fields.blank
      check (endFault closed .object)
      return make (← fields.finish found)
    | .array items closed => do
      let inner ← source.enter
      let (values, rest) ← fields.readItems inner type fields.count closed 0 items
      return make (← finishItems source items.length fields.count closed values rest)
    | node => .error (node.mismatch type)
  | _, .tagged type tag variants, source, node =>
    match node with
    | .object members closed => do
      let inner ← source.enter
      let (found, others) ← splitTag tag variants.names inner members none
      check (endFault closed .object)
      match found with
      | none => .error (.mismatch (.missingField tag))
      | some name => variants.readObject name others
    | .array items closed => do
      let inner ← source.enter
      match items with
      | [] => .error ((endFault closed .list).getD (.mismatch (.missingField tag)))
      | first :: rest =>
        let name ← chosen variants.names id (← first.identifier)
        rest.forM fun item => discard (item.toValue inner)
        check (endFault closed .list)
        variants.readList name rest
    | node => .error (node.mismatch type)
  | _, .either type ofText fields make _, source, node => do
    discard (node.toValue source)
    match node with
    | .leaf (.text s) => return ofText s
    | .object members _ =>
      let read := do
        let found ← acceptAll (fun name value found => fields.accept .buffer name value found)
          members fields.blank
        fields.finish found
      match read with
      | .ok values => return make values
      | .error _ => .error (.mismatch (.noMatch type))
    | _ => .error (.mismatch (.noMatch type))

/--
Takes a member of an object as the value of the field with its name, if there is one. It must not
have a value yet.
-/
def Fields.accept : {ρ σ : Type} → Fields ρ σ → Source → String → Node → σ →
    Except Fault (Option σ)
  | _, _, .nil, _, _, _, _ => .ok none
  | _, _, .cons field _ _ schema rest, source, name, node, (found, others) =>
    if name = field.main ∨ name ∈ field.aliases then
      if found.isSome then
        .error (.mismatch (.duplicateField field.main))
      else do
        let a ← schema.read source node
        return some (some a, others)
    else do
      match ← rest.accept source name node others with
      | some others => return some (found, others)
      | none => return none

/--
Takes elements of a list as the values of the fields in their order. The values of fields at the end
may be missing if they have a default. What is left of the list is returned, too.
-/
def Fields.readItems : {ρ σ : Type} → Fields ρ σ → Source → (type : String) → (count : Nat) →
    (closed : Bool) → (taken : Nat) → List Node → Except Fault (ρ × List Node)
  | _, _, .nil, _, _, _, _, _, items => .ok ((), items)
  | _, _, .cons _ absent _ schema rest, source, type, count, closed, taken, items =>
    match items with
    | [] => do
      check (endFault closed .list)
      match absent with
      | some a =>
        let (values, items) ← rest.readItems source type count closed taken []
        return ((a, values), items)
      | none => .error (.mismatch (.wrongLength taken s!"{type} with {elements count}"))
    | node :: items => do
      let a ← schema.read source node
      let (values, items) ← rest.readItems source type count closed (taken + 1) items
      return ((a, values), items)

def Variants.readObject : {α : Type} → Variants α → String → List (Node × Node) → Except Fault α
  | _, .nil, name, _ => .error (.mismatch (.unknownVariant name []))
  | _, .cons variant _ fields make _ rest, name, members =>
    if name = variant then do
      let found ← acceptAll (fun name value found => fields.accept .buffer name value found)
        members fields.blank
      return make (← fields.finish found)
    else
      rest.readObject name members

def Variants.readList : {α : Type} → Variants α → String → List Node → Except Fault α
  | _, .nil, name, _ => .error (.mismatch (.unknownVariant name []))
  | _, .cons variant type fields make _ rest, name, items =>
    if name = variant then do
      let (values, left) ← fields.readItems .buffer type fields.count true 0 items
      return make (← finishItems .buffer items.length fields.count true values left)
    else
      rest.readList name items

end

/--
Reads a text. Nothing may follow the document.
-/
def Schema.decode {α : Type} (schema : Schema α) (text : String) : Except Fault α := do
  let (root, trailing) := Node.ofText text
  let a ← schema.read (.text Source.limit) root
  if trailing then .error (.malformed .trailingText) else return a

def Schema.decodeValue {α : Type} (schema : Schema α) (value : Value) : Except Fault α :=
  schema.read .value (.ofValue value)

end Stagecraft
