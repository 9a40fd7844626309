import Stagecraft.Adapter

/-!
This module contains what holds of the reading of values in memory. A list is read item by item,
and the first item that cannot be read is what is wrong with all of it. The events of a scenario are
read like that.
-/

namespace Stagecraft

def error? {α ε : Type} : Except ε α → Option ε
  | .ok _ => none
  | .error error => some error

theorem error?_eq_some_iff {α ε : Type} {result : Except ε α} {error : ε} :
    error? result = some error ↔ result = .error error := by
  cases result with
  | ok => simp [error?]
  | error => simp [error?]

theorem error?_eq_none_iff {α ε : Type} {result : Except ε α} :
    error? result = none ↔ ∃ value, result = .ok value := by
  cases result with
  | ok => simp [error?]
  | error => simp [error?]

theorem error?_mapError {α ε δ : Type} (f : ε → δ) (result : Except ε α) :
    error? (result.mapError f) = (error? result).map f := by
  cases result with
  | ok => rfl
  | error => rfl

theorem error?_bind {α β ε : Type} (first : Except ε α) (next : α → Except ε β)
    {second : Option ε} (h : ∀ value, error? (next value) = second) :
    error? (first >>= next) = (error? first <|> second) := by
  cases first with
  | ok value => exact h value
  | error => rfl

theorem error?_bind_pure {α β ε : Type} (result : Except ε α) (f : α → β) :
    error? (result >>= fun x => pure (f x)) = error? result := by
  cases result with
  | ok => rfl
  | error => rfl

theorem error?_mapM {α β ε : Type} (f : α → Except ε β) (xs : List α) :
    error? (xs.mapM f) = xs.findSome? fun x => error? (f x) := by
  induction xs with
  | nil => rfl
  | cons x rest ih =>
    rw [List.mapM_cons, List.findSome?_cons, ← ih]
    cases f x with
    | error => rfl
    | ok =>
      cases rest.mapM f with
      | error => rfl
      | ok => rfl

theorem Node.ofValues_eq_map (values : List Value) :
    Node.ofValues values = values.map Node.ofValue := by
  induction values with
  | nil => rfl
  | cons value rest ih => rw [Node.ofValues, ih, List.map_cons]

theorem Schema.decodeValue_list {α : Type} (item : Schema α) (items : List Value) :
    (Schema.list item).decodeValue (.array items) = items.mapM item.decodeValue := by
  unfold Schema.decodeValue
  rw [Node.ofValue, Schema.read, Node.ofValues_eq_map]
  simp only [Source.enter, endFault, check, bind, Except.bind, pure, Except.pure, ↓reduceIte,
    List.mapM_map, Function.comp_def]
  generalize items.mapM (fun value => item.read .value (Node.ofValue value)) = values
  cases values with
  | error => rfl
  | ok => rfl

def Event.flaw? (item : Value) : Option Error :=
  (error? (Event.schema.decodeValue item)).map .document

namespace Adapter

/--
What is wrong with the events that a scenario lists: they are no list, or one of them is no event.
-/
def listFlaw? (scenario : Value) : Option Error :=
  match scenario.member? "events" with
  | none | some .null => none
  | some (.array items) => items.findSome? Event.flaw?
  | some _ => some (.action .eventsNotArray)

theorem error?_listed (scenario : Value) : error? (listed scenario) = listFlaw? scenario := by
  unfold listed listFlaw?
  cases scenario.member? "events" with
  | none => rfl
  | some value =>
    cases value with
    | array items =>
      dsimp only
      rw [error?_mapError, Schema.decodeValue_list, error?_mapM, List.map_findSome?]
      rfl
    | _ => rfl

end Adapter

end Stagecraft
