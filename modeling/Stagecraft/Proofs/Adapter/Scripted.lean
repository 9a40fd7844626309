import Mathlib.Data.List.Forall2
import Stagecraft.Proofs.Action.Numbering
import Stagecraft.Proofs.Document.Kinds
import Stagecraft.Proofs.Document.Members
import Stagecraft.Proofs.Widget.Response
import Stagecraft.Stage.Rehearsal

/-!
This module contains how events are written down in scenarios, and that it makes no difference
whether events are played from there or were given beforehand.
-/

namespace Stagecraft

theorem mapM_eq_ok_iff {α β ε : Type} {f : α → Except ε β} {xs : List α} {ys : List β} :
    xs.mapM f = .ok ys ↔ List.Forall₂ (fun x y => f x = .ok y) xs ys := by
  induction xs generalizing ys with
  | nil => simp [pure, Except.pure, eq_comm]
  | cons x rest ih =>
    rw [List.mapM_cons, List.forall₂_cons_left_iff]
    constructor
    · intro h
      obtain ⟨y, first, h⟩ := exists_of_bind_eq_ok h
      obtain ⟨others, found, h⟩ := exists_of_bind_eq_ok h
      cases h
      exact ⟨y, others, first, ih.mp found, rfl⟩
    · rintro ⟨y, others, first, found, rfl⟩
      rw [first, ih.mpr found]
      rfl

theorem exists_forall₂_iff {α β : Type} {r : α → β → Prop} {xs : List α} :
    (∃ ys, List.Forall₂ r xs ys) ↔ ∀ x ∈ xs, ∃ y, r x y := by
  induction xs with
  | nil => simp
  | cons x rest ih =>
    rw [List.forall_mem_cons, ← ih]
    simp only [List.forall₂_cons_left_iff]
    constructor
    · rintro ⟨_, y, ys, first, others, _⟩
      exact ⟨⟨y, first⟩, ys, others⟩
    · rintro ⟨⟨y, first⟩, ys, others⟩
      exact ⟨_, y, ys, first, others, rfl⟩

theorem Schema.decodeValue_index_eq_ok_iff {value : Value} {n : UInt64} :
    Schema.index.decodeValue value = .ok n ↔ value = .ofIndex n := by
  rw [← Value.toIndex?_eq_some_iff_ofIndex]
  cases value with
  | number m =>
    cases m with
    | integer m =>
      by_cases neg : m < 0
      · simp [decodeValue, Node.ofValue, read, Node.toIndex, Value.toIndex?, Number.toIndex?, neg]
      · simp [decodeValue, Node.ofValue, read, Node.toIndex, Value.toIndex?, Number.toIndex?, neg]
    | real => simp [decodeValue, Node.ofValue, read, Node.toIndex, Value.toIndex?, Number.toIndex?]
  | _ => simp [decodeValue, Node.ofValue, read, Node.toIndex, Value.toIndex?]

namespace Event

/--
How an event is written down in a scenario.
-/
def toValue (e : Event) : Value :=
  .ofMembers (("type", .text e.kind) :: ("payload", .object e.payload) ::
    ("step", .ofIndex e.step) ::
    e.metadata.toList.map fun metadata => ("metadata", .object metadata))

/--
The objects that are events. The kind has two names, of which one is used.
-/
theorem decodeValue_object_eq_ok_iff {t : Table Value} {e : Event} :
    schema.decodeValue (.object t) = .ok e ↔
      (t.get? "type" = some (.text e.kind) ∧ t.get? "kind" = none ∨
        t.get? "kind" = some (.text e.kind) ∧ t.get? "type" = none) ∧
      (t.get? "payload" = none ∧ e.payload = .empty ∨
        t.get? "payload" = some (.object e.payload)) ∧
      (t.get? "step" = none ∧ e.step = 0 ∨ t.get? "step" = some (.ofIndex e.step)) ∧
      (t.get? "metadata" = none ∧ e.metadata = none ∨
        ∃ value, t.get? "metadata" = some value ∧
          (value = .null ∧ e.metadata = none ∨
            ∃ metadata, value = .object metadata ∧ e.metadata = some metadata)) := by
  unfold schema
  rw [Schema.decodeValue_record_eq_ok_iff isLawful_schema]
  simp only [Fields.required, Fields.defaulted, Fields.optional, Fields.holds_cons_iff,
    Schema.decodeValue_text_eq_ok_iff, Schema.decodeValue_table_value_eq_ok_iff,
    Schema.decodeValue_index_eq_ok_iff, Schema.decodeValue_optional_table_eq_ok_iff]
  simp [FieldName.all, Fields.Holds]

theorem decodeValue_toValue (e : Event) : schema.decodeValue e.toValue = .ok e := by
  unfold toValue Value.ofMembers
  rw [decodeValue_object_eq_ok_iff]
  simp only [Table.get?_ofList]
  cases e.metadata with
  | none => simp [List.lookup_cons]
  | some metadata => simp [List.lookup_cons]

/--
An event is written down as it is written by its schema.
-/
theorem toValue_write (e : Event) : (schema.write e).toValue .value = .ok e.toValue := by
  rw [toValue, ← Node.toValue_object]
  apply congrArg (Node.toValue .value)
  obtain ⟨kind, payload, step, metadata⟩ := e
  have text : Node.ofValue (.text kind) = .text kind := by rw [Node.ofValue]
  have index : Node.ofValue (.ofIndex step) = .number (.ofIndex step) := by
    rw [Value.ofIndex, Node.ofValue]
  cases metadata with
  | none =>
    simp only [Option.toList, List.map, text, index, Node.ofValue_object]
    rfl
  | some metadata =>
    simp only [Option.toList, List.map, text, index, Node.ofValue_object]
    rfl

end Event

namespace Adapter

/--
The events that are listed in a scenario: none if it has no list, else each what stands in its
place in the list.
-/
inductive Lists : Value → List Event → Prop where
  | other {scenario : Value} (h : ∀ members, scenario ≠ .object members) : Lists scenario []
  | none {members : Table Value} (h : members.get? "events" = none) : Lists (.object members) []
  | null {members : Table Value} (h : members.get? "events" = some .null) :
    Lists (.object members) []
  | given {members : Table Value} {items : List Value} {events : List Event}
    (h : members.get? "events" = some (.array items))
    (each : List.Forall₂ (fun item event => Event.schema.decodeValue item = .ok event) items
      events) : Lists (.object members) events

theorem decodeValue_events_eq_ok_iff {items : List Value} {events : List Event} :
    (Schema.list Event.schema).decodeValue (.array items) = .ok events ↔
      List.Forall₂ (fun item event => Event.schema.decodeValue item = .ok event) items events := by
  rw [Schema.decodeValue_list, mapM_eq_ok_iff]

theorem listed_eq_ok_iff {scenario : Value} {events : List Event} :
    listed scenario = .ok events ↔ Lists scenario events := by
  unfold listed
  constructor
  · intro h
    split at h
    next absent =>
      cases h
      cases scenario with
      | object => exact .none absent
      | _ => exact .other fun _ => Value.noConfusion
    next null =>
      cases h
      cases scenario with
      | object => exact .null null
      | _ => cases null
    next items given =>
      cases scenario with
      | object =>
        cases read : (Schema.list Event.schema).decodeValue (.array items) with
        | error =>
          rw [read] at h
          cases h
        | ok found =>
          rw [read] at h
          cases h
          exact .given given (decodeValue_events_eq_ok_iff.mp read)
      | _ => cases given
    · cases h
  · intro h
    cases h with
    | other h =>
      cases scenario with
      | object members => exact absurd rfl (h members)
      | _ => rfl
    | none h => rw [Value.member?, h]
    | null h => rw [Value.member?, h]
    | given h each =>
      rw [Value.member?, h]
      dsimp only
      rw [decodeValue_events_eq_ok_iff.mpr each]
      rfl

theorem exists_lists_iff {scenario : Value} :
    (∃ events, Lists scenario events) ↔
      (∀ members, scenario ≠ .object members) ∨
      ∃ members, scenario = .object members ∧
        (members.get? "events" = none ∨ members.get? "events" = some .null ∨
          ∃ items, members.get? "events" = some (.array items) ∧
            ∀ item ∈ items, ∃ event, Event.schema.decodeValue item = .ok event) := by
  constructor
  · rintro ⟨events, lists⟩
    cases lists with
    | other h => exact .inl h
    | none h => exact .inr ⟨_, rfl, .inl h⟩
    | null h => exact .inr ⟨_, rfl, .inr (.inl h)⟩
    | given h each => exact .inr ⟨_, rfl, .inr (.inr ⟨_, h, exists_forall₂_iff.mp ⟨_, each⟩⟩)⟩
  · rintro (h | ⟨members, rfl, h | h | ⟨items, h, each⟩⟩)
    · exact ⟨[], .other h⟩
    · exact ⟨[], .none h⟩
    · exact ⟨[], .null h⟩
    · obtain ⟨events, each⟩ := exists_forall₂_iff.mpr each
      exact ⟨events, .given h each⟩

theorem lists_toValue (events : List Event) (others : Table Value) :
    Lists (.object (others.insert "events" (.array (events.map Event.toValue)))) events := by
  apply Lists.given
  · rw [Table.get?_insert, if_pos rfl]
  · rw [List.forall₂_map_left_iff, List.forall₂_same]
    exact fun event _ => event.decodeValue_toValue

end Adapter

theorem Builtin.action_playEvents_of_run_error {ω σ : Type} [Widget ω] [Stage σ] {args : Args}
    {scenario : Value} {adapter : Adapter} {error : Error}
    (h : adapter.run ((args.get? "scenario").getD scenario) = .error error)
    (runTime : Float) (p : Performance ω σ) :
    let start : Performance ω σ := { p with context := p.context.withAdapter adapter scenario }
    (∃ error, (playEvents.action args runTime start).1 = .error error) ∧
      (playEvents.action args runTime start).2 = start := by
  intro start
  rw [action_eq, Cue.ofArgs_playEvents, h]
  cases p.context.requireEngine with
  | error missing => exact ⟨⟨missing, rfl⟩, rfl⟩
  | ok engine => exact ⟨⟨error, rfl⟩, rfl⟩

namespace Adapter

/--
Events that are listed in a scenario and events that are given beforehand are the same to a run. A
scenario lists events if it is no object or has nothing under `events`, or a list of nothing but
events. Of any other scenario no event is played.
-/
theorem run_scripted {ω σ : Type} [Widget ω] [Stage σ] :
    (∀ event : Event, (Event.schema.write event).toValue .value = .ok event.toValue) ∧
    (∀ (events : List Event) (others : Table Value) (scenario : Value),
      let listing := others.insert "events" (.array (events.map Event.toValue))
      scripted.run (.object listing) = .ok events ∧
      (scripted (some events)).run scenario = .ok events) ∧
    (∀ scenario : Value,
      (∀ events, scripted.run scenario = .ok events ↔ Lists scenario events) ∧
      ((∃ events, scripted.run scenario = .ok events) ↔
        (∀ members, scenario ≠ .object members) ∨
        ∃ members, scenario = .object members ∧
          (members.get? "events" = none ∨ members.get? "events" = some .null ∨
            ∃ items, members.get? "events" = some (.array items) ∧
              ∀ item ∈ items, ∃ event, Event.schema.decodeValue item = .ok event))) ∧
    ∀ (p : Performance ω σ) (args : Args) (runTime : Float) (scenario : Value),
      let start (adapter : Adapter) : Performance ω σ :=
        { p with context := p.context.withAdapter adapter scenario }
      let played (adapter : Adapter) := Builtin.playEvents.action args runTime (start adapter)
      (∀ events, Lists ((args.get? "scenario").getD scenario) events →
        played (scripted (some events)) = ((played scripted).1,
          { (played scripted).2 with
            context := (played scripted).2.context.withAdapter (scripted (some events)) scenario })) ∧
      ((∀ events, ¬Lists ((args.get? "scenario").getD scenario) events) →
        (∃ error, (played scripted).1 = .error error) ∧
          (played scripted).2 = start scripted) := by
  have lists_iff (scenario : Value) (events : List Event) :
      scripted.run scenario = .ok events ↔ Lists scenario events := listed_eq_ok_iff
  refine ⟨Event.toValue_write, ?_, ?_, ?_⟩
  · intro events others scenario listing
    exact ⟨(lists_iff _ events).mpr (lists_toValue events others), rfl⟩
  · intro scenario
    refine ⟨lists_iff scenario, ?_⟩
    simp only [lists_iff]
    exact exists_lists_iff
  · intro p args runTime scenario start played
    constructor
    · intro events lists
      have agree : List.Forall₂ Event.Agrees events events :=
        List.forall₂_same.mpr fun _ _ => ⟨rfl, rfl, rfl⟩
      exact Builtin.action_playEvents_congr agree ((lists_iff _ events).mpr lists) rfl p runTime
    · intro none
      cases run : scripted.run ((args.get? "scenario").getD scenario) with
      | ok events => exact absurd ((lists_iff _ events).mp run) (none events)
      | error => exact Builtin.action_playEvents_of_run_error run runTime p

/--
The two names for the kind, a step that is written down, and metadata that are nothing: all of it is
read. An event with both names for its kind is not, so that nothing is played.
-/
theorem run_scripted_of_spellings :
    let enqueue : Table Value := .ofList [("kind", .text "enqueue"), ("step", .ofIndex 42)]
    let dequeue : Table Value := .ofList [("type", .text "dequeue"), ("metadata", .null)]
    let both : Table Value := .ofList [("type", .text "visit"), ("kind", .text "visit")]
    let listing (items : List (Table Value)) : Table Value :=
      .ofList [("events", .array (items.map .object)), ("seed", .ofIndex 7)]
    let events : List Event := [{ kind := "enqueue", step := 42 }, { kind := "dequeue" }]
    let engine : Engine StockWidget := {
      name := "maze", algorithm := "bfs", widgets := .empty, routing := {}, tempo := .standard }
    let p : Performance StockWidget Rehearsal := { context := .ofEngine engine, stage := {} }
    let played (adapter : Adapter) (items : List (Table Value)) : Except Error Unit × _ :=
      Builtin.playEvents.action .empty 1.0
        { p with context := p.context.withAdapter adapter (.object (listing items)) }
    scripted.run (.object (listing [enqueue, dequeue])) = .ok events ∧
    (played scripted [enqueue, dequeue]).1 = .ok () ∧
    ∃ error, (played scripted [enqueue, both]).1 = .error error := by
  intro enqueue dequeue both listing events engine p played
  have given (items : List (Table Value)) :
      (listing items).get? "events" = some (.array (items.map .object)) := by
    simp [listing, Table.get?_ofList, List.lookup_cons]
  have lists : Lists (.object (listing [enqueue, dequeue])) events := by
    refine .given (given _) (.cons ?_ (.cons ?_ .nil))
    · apply Event.decodeValue_object_eq_ok_iff.mpr
      exact ⟨.inr ⟨rfl, rfl⟩, .inl ⟨rfl, rfl⟩, .inr rfl, .inl ⟨rfl, rfl⟩⟩
    · apply Event.decodeValue_object_eq_ok_iff.mpr
      exact ⟨.inl ⟨rfl, rfl⟩, .inl ⟨rfl, rfl⟩, .inl ⟨rfl, rfl⟩, .inr ⟨.null, rfl, .inl ⟨rfl, rfl⟩⟩⟩
  have refused (events : List Event) : ¬Lists (.object (listing [enqueue, both])) events := by
    intro lists
    obtain other | ⟨_, same, known⟩ := exists_lists_iff.mp ⟨events, lists⟩
    · exact other _ rfl
    · cases same
      rw [given] at known
      obtain ⟨⟨⟩⟩ | ⟨⟨⟩⟩ | ⟨_, ⟨⟩, each⟩ := known
      obtain ⟨event, read⟩ := each (.object both) (by simp)
      obtain ⟨⟨_, alone⟩ | ⟨_, alone⟩, _⟩ := Event.decodeValue_object_eq_ok_iff.mp read
      · cases alone
      · cases alone
  obtain ⟨_, _, run, play⟩ := run_scripted (ω := StockWidget) (σ := Rehearsal)
  refine ⟨(run _).1 events |>.mpr lists, ?_, ?_⟩
  · have given : (played (scripted (some events)) [enqueue, dequeue]).1 = .ok () := rfl
    rw [← given]
    exact (Prod.ext_iff.mp ((play p .empty 1.0 _).1 events lists)).1.symm
  · exact ((play p .empty 1.0 _).2 refused).1

end Adapter

end Stagecraft
