import Mathlib.Data.List.Forall2
import Stagecraft.Proofs.Action.EventCount
import Stagecraft.Stage.Rehearsal

/-!
This module contains the numbering of events. The steps of the events that are played come from the
stream that they are taken from and from nothing else: what steps the events had before is never
seen.
-/

namespace Stagecraft

theorem mapIdx_eq_mapIdx_iff {α β : Type} {r : α → α → Prop} {f : Nat → α → β}
    (h : ∀ place a b, f place a = f place b ↔ r a b) {xs ys : List α} :
    xs.mapIdx f = ys.mapIdx f ↔ List.Forall₂ r xs ys := by
  induction xs generalizing ys f with
  | nil =>
    cases ys with
    | nil => simp
    | cons => simp
  | cons x xs ih =>
    cases ys with
    | nil => simp
    | cons y ys =>
      rw [List.mapIdx_cons, List.mapIdx_cons, List.cons.injEq, List.forall₂_cons, h,
        ih fun place => h (place + 1)]

namespace Event

/--
Whether two events say the same, whatever their steps are.
-/
structure Agrees (event other : Event) : Prop where
  kind : event.kind = other.kind
  payload : event.payload = other.payload
  metadata : event.metadata = other.metadata

theorem agrees_iff {event other : Event} {step : UInt64} :
    ({ event with step } : Event) = { other with step } ↔ event.Agrees other := by
  constructor
  · intro same
    injection same with kind payload _ metadata
    exact ⟨kind, payload, metadata⟩
  · rintro ⟨kind, payload, metadata⟩
    rw [kind, payload, metadata]

theorem numbered_eq_iff {events others : List Event} :
    numbered events = numbered others ↔ List.Forall₂ Agrees events others := by
  unfold numbered
  apply mapIdx_eq_mapIdx_iff
  intro place event other
  exact agrees_iff

end Event

namespace EventStream

theorem pull_numbered (count : Nat) (events : List Event) :
    EventSource.pull count ({ ahead := events } : EventStream) =
      (Event.numbered (events.take count),
        { ahead := events.drop count, taken := min count events.length }) := by
  rw [pull_eq, EventSource.pull_list]
  simp [Event.numbered]

/--
A stream that takes its events from another stream and has taken as many gives what that one gives.
-/
theorem pull_pull {ι : Type} [EventSource ι] (count : Nat) (s : EventStream ι) :
    EventSource.pull count ({ ahead := s, taken := s.taken } : EventStream (EventStream ι)) =
      ((EventSource.pull count s).1,
        { ahead := (EventSource.pull count s).2, taken := (EventSource.pull count s).2.taken }) := by
  rw [pull_eq]
  dsimp only
  rw [pull_eq count s]
  simp only [List.mapIdx_mapIdx, List.length_mapIdx]
  rfl

theorem pull_eq_pull_iff {events others : List Event} :
    (∀ count, (EventSource.pull count ({ ahead := others } : EventStream)).1 =
      (EventSource.pull count ({ ahead := events } : EventStream)).1) ↔
      List.Forall₂ Event.Agrees events others := by
  simp only [pull_numbered, ← Event.numbered_take]
  rw [← Event.numbered_eq_iff]
  constructor
  · intro same
    have all := same (max events.length others.length)
    rw [List.take_of_length_le, List.take_of_length_le] at all
    · exact all.symm
    · rw [Event.length_numbered]
      apply Nat.le_max_left
    · rw [Event.length_numbered]
      apply Nat.le_max_right
  · intro same count
    rw [same]

end EventStream

section Play

variable {ω σ : Type} [Widget ω] [Stage σ] {events others : List Event}

theorem Cue.play_congr (h : List.Forall₂ Event.Agrees events others) (engine : Engine ω)
    (limit : Option Nat) (p : Performance ω σ) :
    play engine events limit p = play engine others limit p := by
  have same : taken events limit = taken others limit := by
    unfold taken
    rw [Event.numbered_eq_iff.mpr h, h.length_eq]
  rw [play_eq_foldl_dispatch, play_eq_foldl_dispatch, same]

/--
Two adapters whose events say the same leave a run in the same state, but for the adapter.
-/
theorem Builtin.action_playEvents_congr (h : List.Forall₂ Event.Agrees events others) {args : Args}
    {scenario : Value} {first second : Adapter}
    (made : first.run ((args.get? "scenario").getD scenario) = .ok events)
    (remade : second.run ((args.get? "scenario").getD scenario) = .ok others)
    (p : Performance ω σ) (seconds : Float) :
    let play (adapter : Adapter) := playEvents.action args seconds
      { p with context := p.context.withAdapter adapter scenario }
    play second =
      ((play first).1,
        { (play first).2 with context := (play first).2.context.withAdapter second scenario }) := by
  intro play
  unfold play
  rw [action_eq, action_eq, Cue.ofArgs_playEvents, Cue.ofArgs_playEvents, made, remade]
  cases p.context.requireEngine with
  | error => rfl
  | ok engine =>
    have same := Cue.play_congr h engine (Cue.limit? args)
      { p with context := p.context.withAdapter second scenario }
    exact (congrArg (fun after => (Except.ok (), after)) same).symm

end Play

namespace EventStream

variable {ω σ : Type} [Widget ω] [Stage σ]

/--
A stream gives the events that it is made from, each with the number of those before it as its step,
and takes no more of them than it has given; what it says to remain does. A stream that is made from
such a stream gives just the same. Two lists give the same if and only if their events say the same,
and then it makes no difference to a run which of them is played.
-/
theorem steps_pull (events : List Event) :
    let stream : EventStream := { ahead := events }
    (∀ count,
      let pulled := EventSource.pull count stream
      pulled.1.length = min count events.length ∧
      (∀ place event, place < count → events[place]? = some event →
        pulled.1[place]? = some { event with step := .ofNat place }) ∧
      pulled.2.ahead = events.drop pulled.1.length ∧
      EventSource.remaining pulled.2 = events.length - pulled.1.length) ∧
    (∀ count,
      let once := EventSource.pull count stream
      let twice := EventSource.pull count ({ ahead := stream } : EventStream EventStream)
      twice.1 = once.1 ∧ twice.2.ahead = once.2 ∧
      EventSource.remaining twice.2 = EventSource.remaining once.2) ∧
    ∀ others : List Event,
      ((∀ count, (EventSource.pull count ({ ahead := others } : EventStream)).1 =
        (EventSource.pull count stream).1) ↔ List.Forall₂ Event.Agrees events others) ∧
      (List.Forall₂ Event.Agrees events others →
        ∀ (p : Performance ω σ) (args : Args) (scenario : Value) (seconds : Float)
          (first second : Adapter),
          first.run ((args.get? "scenario").getD scenario) = .ok events →
          second.run ((args.get? "scenario").getD scenario) = .ok others →
          let play (adapter : Adapter) := Builtin.playEvents.action args seconds
            { p with context := p.context.withAdapter adapter scenario }
          (play second).1 = (play first).1 ∧ (play second).2.stage = (play first).2.stage ∧
          (play second).2.context = (play first).2.context.withAdapter second scenario) := by
  intro stream
  refine ⟨?_, ?_, ?_⟩
  · intro count pulled
    have given : pulled = _ := pull_numbered count events
    have length : pulled.1.length = min count events.length := by
      rw [given, Event.length_numbered, List.length_take]
    refine ⟨length, ?_, ?_, ?_⟩
    · intro place event before known
      rw [given]
      simp [Event.numbered, List.getElem?_take_of_lt before, known]
    · rw [length, given]
      exact List.drop_eq_drop_min
    · rw [length, given]
      change (events.drop count).length = _
      rw [List.length_drop]
      omega
  · intro count once twice
    have same : twice = _ := pull_pull count stream
    rw [same]
    exact ⟨rfl, rfl, rfl⟩
  · intro others
    refine ⟨pull_eq_pull_iff, ?_⟩
    intro h p args scenario seconds first second made remade play
    have same : play second = _ := Builtin.action_playEvents_congr h made remade p seconds
    rw [same]
    exact ⟨rfl, rfl, rfl⟩

/--
Two events that both say that they are the eighth become the first and the second, and so do two
that say something else. The steps are seen where a binding fails.
-/
theorem steps_pull_of_repeated_step :
    let events : List Event := [{ kind := "visit", step := 7 }, { kind := "visit", step := 7 }]
    let others : List Event := [{ kind := "visit", step := 41 }, { kind := "visit" }]
    let engine : Engine StockWidget := {
      name := "maze", algorithm := "bfs"
      widgets := .ofList [("steps", .counter { name := "steps" })]
      routing := .ofSpecs (.ofList [("visit", [.bare "steps", .bare "steps.onEvent"])])
      tempo := .standard }
    let p : Performance StockWidget Rehearsal := { context := .ofEngine engine, stage := {} }
    let play (events : List Event) := Builtin.playEvents.action .empty 1.0
      { p with context := p.context.withAdapter (.scripted (some events)) .null }
    (EventSource.pull 2 ({ ahead := events } : EventStream)).1[1]? =
      some { kind := "visit", step := 1 } ∧
    List.Forall₂ Event.Agrees events others ∧
    (play events).2.context.failures.map (·.step) = [0, 1] ∧
    (play others).2.context =
      (play events).2.context.withAdapter (.scripted (some others)) .null := by
  intro events others engine p play
  have agree : List.Forall₂ Event.Agrees events others :=
    .cons ⟨rfl, rfl, rfl⟩ (.cons ⟨rfl, rfl, rfl⟩ .nil)
  obtain ⟨given, _, compared⟩ := steps_pull (ω := StockWidget) (σ := Rehearsal) events
  obtain ⟨_, second, _⟩ := given 2
  obtain ⟨_, _, same⟩ := (compared others).2 agree p .empty .null 1.0 (.scripted (some events))
    (.scripted (some others)) rfl rfl
  exact ⟨second 1 _ (by decide) rfl, agree, rfl, same⟩

end EventStream

end Stagecraft
