import Mathlib.Data.List.Induction
import Stagecraft.Proofs.Action.Effect
import Stagecraft.Proofs.Widget.Making

/-!
This module contains how many events an action plays, and what it leaves: the events are the first
ones that there are, and what could not be delivered is written down in their order.
-/

namespace Stagecraft

namespace Event

theorem numbered_concat (events : List Event) (event : Event) :
    numbered (events ++ [event]) =
      numbered events ++ [{ event with step := .ofNat events.length }] := by
  unfold numbered
  apply List.mapIdx_concat

theorem numbered_take (events : List Event) (count : Nat) :
    (numbered events).take count = numbered (events.take count) := by
  unfold numbered
  apply List.ext_getElem
  · simp
  · simp

theorem length_numbered (events : List Event) : (numbered events).length = events.length := by
  unfold numbered
  simp

end Event

namespace Cue

def limit? (args : Args) : Option Nat := ((args.get? "limit").bind (·.toIndex?)).map (·.toNat)

/--
How many of some events are played with the arguments. Only a whole number that is not negative
makes them fewer.
-/
def eventCount (args : Args) (available : Nat) : Nat :=
  match args.get? "limit" with
  | some (.number (.integer limit _)) => if 0 ≤ limit then min limit.toNat available else available
  | _ => available

theorem eventCount_eq (args : Args) (available : Nat) :
    eventCount args available = min ((limit? args).getD available) available := by
  unfold eventCount limit?
  cases args.get? "limit" with
  | none => simp
  | some value =>
    rw [Option.bind_some]
    cases index : value.toIndex? with
    | some size =>
      obtain ⟨limit, exact, rfl, nonneg, rfl⟩ := Value.toIndex?_eq_some_iff.mp index
      have small : limit.toNat < 2 ^ 64 := by
        obtain ⟨_, _⟩ := exact
        omega
      dsimp only [Option.map_some, Option.getD_some]
      rw [if_pos nonneg, UInt64.toNat_ofNat_of_lt' small]
    | none =>
      dsimp only [Option.map_none, Option.getD_none]
      rw [Nat.min_self]
      split
      next limit exact same =>
        cases same
        apply if_neg
        intro nonneg
        rw [Value.toIndex?_eq_some_iff.mpr ⟨limit, exact, rfl, nonneg, rfl⟩] at index
        cases index
      · rfl

theorem eventCount_le (args : Args) (available : Nat) : eventCount args available ≤ available := by
  rw [eventCount_eq]
  apply Nat.min_le_right

theorem eventCount_of_no_limit {args : Args} (h : args.get? "limit" = none) (available : Nat) :
    eventCount args available = available := by
  unfold eventCount
  rw [h]

theorem taken_limit? (args : Args) (events : List Event) :
    taken events (limit? args) =
      Event.numbered (events.take (eventCount args events.length)) := by
  unfold taken
  rw [Event.numbered_take, eventCount_eq, ← List.take_eq_take_min]

theorem ofArgs_playEvents {ω : Type} (args : Args) (context : Context ω) (adapter : Adapter)
    (scenario : Value) :
    ofArgs .playEvents args (context.withAdapter adapter scenario) =
      context.requireEngine >>= fun engine =>
        adapter.run ((args.get? "scenario").getD scenario) >>= fun events =>
          .ok (.playEvents engine events (limit? args)) := rfl

theorem ofArgs_playEvents_eq_ok_iff {ω : Type} {args : Args} {context : Context ω}
    {cue : Cue ω} :
    ofArgs .playEvents args context = .ok cue ↔
      ∃ engine adapter events, context.engine = some engine ∧ context.adapter = some adapter ∧
        adapter.run ((args.get? "scenario").getD context.scenario) = .ok events ∧
        cue = .playEvents engine events (limit? args) := by
  unfold ofArgs Context.requireEngine Context.requireAdapter
  cases context.engine with
  | none => simp [bind, Except.bind]
  | some engine =>
    cases context.adapter with
    | none => simp [bind, Except.bind]
    | some adapter =>
      cases made : adapter.run ((args.get? "scenario").getD context.scenario) with
      | error => simp [bind, Except.bind, made]
      | ok events => simp [bind, Except.bind, made, pure, Except.pure, limit?, eq_comm]

end Cue

/--
What is tried for numbered events is in their order.
-/
theorem Routing.exists_places_trials (r : Routing) (events : List Event) :
    ∃ places : List Nat,
      (r.trials (Event.numbered events)).map (·.event.step) = places.map .ofNat ∧
      places.Pairwise (· ≤ ·) ∧ ∀ place ∈ places, place < events.length := by
  -- The induction is on the last event, whose place is the number of those before it.
  induction events using List.reverseRecOn with
  | nil => exact ⟨[], rfl, .nil, by simp⟩
  | append_singleton events event ih =>
    obtain ⟨places, steps, ordered, bounded⟩ := ih
    let last := List.replicate ((r.bindings? event.kind).getD []).length events.length
    refine ⟨places ++ last, ?_, ?_, ?_⟩
    · rw [Event.numbered_concat, trials_append, List.map_append, steps, List.map_append]
      simp only [trials, last, List.flatMap_singleton, List.map_map, List.map_replicate]
      congr 1
      apply List.map_const'
    · rw [List.pairwise_append]
      refine ⟨ordered, ?_, ?_⟩
      · simp [last]
      · intro place mem other among
        rw [List.eq_of_mem_replicate among]
        exact Nat.le_of_lt (bounded place mem)
    · intro place mem
      rw [List.length_append, List.length_singleton]
      cases List.mem_append.mp mem with
      | inl mem => exact Nat.lt_succ_of_lt (bounded place mem)
      | inr mem =>
        rw [List.eq_of_mem_replicate mem]
        apply Nat.lt_succ_self

theorem Attempt.sublist_steps (attempts : List Attempt) :
    ((attempts.filterMap (·.failure?)).map (·.step)).Sublist
      (attempts.map (·.trial.event.step)) := by
  induction attempts with
  | nil => apply List.Sublist.refl
  | cons a rest ih =>
    obtain ⟨t, result⟩ := a
    cases result with
    | ok => exact ih.cons _
    | error reason => exact ih.cons_cons _

variable {ω σ : Type} [Widget ω] [Stage σ]

/--
What could not be delivered of numbered events is written down in their order.
-/
theorem Router.exists_places_failures (engine : Engine ω) (stage : σ) (events : List Event) :
    let router := (Event.numbered events).foldl Router.dispatch { engine, stage }
    ∃ places : List Nat, router.failures.map (·.step) = places.map .ofNat ∧
      places.Pairwise (· ≤ ·) ∧ ∀ place ∈ places, place < events.length := by
  intro router
  obtain ⟨places, steps, ordered, bounded⟩ := engine.routing.exists_places_trials events
  let start : Router ω σ := { engine, stage }
  let trials := engine.routing.trials (Event.numbered events)
  let attempts := (Trial.runAll engine.tempo engine.widgetNames trials start.ensemble).1
  have failures : router.failures = attempts.filterMap (·.failure?) := by
    dsimp only [router]
    rw [foldl_dispatch]
    rfl
  have tried : attempts.map (·.trial.event.step) = places.map .ofNat := by
    have all : attempts.map (·.trial) = trials := Trial.map_trial_runAll _ _ trials _
    calc attempts.map (·.trial.event.step)
      _ = (attempts.map (·.trial)).map (·.event.step) := by rw [List.map_map]; rfl
      _ = places.map .ofNat := by rw [all]; exact steps
  have sublist := Attempt.sublist_steps attempts
  rw [tried, List.sublist_map_iff] at sublist
  obtain ⟨left, among, same⟩ := sublist
  refine ⟨left, ?_, ordered.sublist among, ?_⟩
  · rw [failures, same]
  · intro place mem
    exact bounded place (among.subset mem)

namespace Cue

theorem length_take_eventCount (args : Args) (events : List Event) :
    (events.take (eventCount args events.length)).length = eventCount args events.length := by
  rw [List.length_take, Nat.min_eq_left]
  apply eventCount_le

/--
To play events is to dispatch the first ones that there are.
-/
theorem play_limit? (args : Args) (engine : Engine ω) (events : List Event)
    (p : Performance ω σ) :
    play engine events (limit? args) p =
      let count := eventCount args events.length
      let router := (Event.numbered (events.take count)).foldl Router.dispatch
        { engine, stage := p.stage }
      { context := { p.context with
          engine := some router.engine
          failures := p.context.failures ++ router.failures
          eventsPlayed := p.context.eventsPlayed + count }
        stage := router.stage } := by
  rw [play_eq_foldl_dispatch, taken_limit?, Event.length_numbered, length_take_eventCount]

theorem play_take (args : Args) {others : Args} (unlimited : others.get? "limit" = none)
    (engine : Engine ω) (events : List Event) (p : Performance ω σ) :
    play engine (events.take (eventCount args events.length)) (limit? others) p =
      play engine events (limit? args) p := by
  have same : taken (events.take (eventCount args events.length)) (limit? others) =
      taken events (limit? args) := by
    rw [taken_limit?, taken_limit?, eventCount_of_no_limit unlimited, List.take_length]
  rw [play_eq_foldl_dispatch, play_eq_foldl_dispatch, same]

end Cue

theorem Builtin.action_playEvents {args : Args} {p : Performance ω σ} {engine : Engine ω}
    {adapter : Adapter} {events : List Event} (known : p.context.engine = some engine)
    (script : p.context.adapter = some adapter)
    (made : adapter.run ((args.get? "scenario").getD p.context.scenario) = .ok events)
    (seconds : Float) :
    playEvents.action args seconds p =
      (.ok (), Cue.play engine events (Cue.limit? args) p) := by
  have ready := Cue.ofArgs_playEvents_eq_ok_iff.mpr
    ⟨engine, adapter, events, known, script, made, rfl⟩
  rw [action_eq, ready]
  rfl

end Stagecraft
