import Stagecraft.Proofs.Playback.Trial

/-!
This module contains the account of a playback: which events it takes, what it leaves of the widgets
and the stage, and what its router says about that. A binding that cannot be delivered costs one
failure and nothing else.
-/

namespace Stagecraft

def EventSource.pull {ι : Type} [EventSource ι] : Nat → ι → List Event × ι
  | 0, source => ([], source)
  | count + 1, source =>
    match EventSource.next? source with
    | none => ([], source)
    | some (event, source) =>
      let others := pull count source
      (event :: others.1, others.2)

theorem EventSource.pull_list (count : Nat) (events : List Event) :
    EventSource.pull count events = (events.take count, events.drop count) := by
  induction count generalizing events with
  | zero => rfl
  | succ count ih =>
    cases events with
    | nil => rfl
    | cons event rest =>
      have next : EventSource.next? (event :: rest) = some (event, rest) := rfl
      simp only [EventSource.pull, next, ih, List.take_succ_cons, List.drop_succ_cons]

/--
What is taken from a stream is what its source gives, and nothing more is taken from there. Only the
steps are those of the stream.
-/
theorem EventStream.pull_eq {ι : Type} [EventSource ι] (count : Nat) (s : EventStream ι) :
    EventSource.pull count s =
      let pulled := EventSource.pull count s.ahead
      (pulled.1.mapIdx fun place event => { event with step := .ofNat (s.taken + place) },
        { ahead := pulled.2, taken := s.taken + pulled.1.length }) := by
  induction count generalizing s with
  | zero => rfl
  | succ count ih =>
    have next : EventSource.next? s = s.next? := rfl
    unfold EventSource.pull
    rw [next]
    unfold next?
    cases EventSource.next? s.ahead with
    | none => rfl
    | some first =>
      obtain ⟨event, ahead⟩ := first
      dsimp only
      rw [ih]
      dsimp only
      simp only [List.mapIdx_cons, List.length_cons, Nat.add_zero, Nat.add_assoc, Nat.add_comm 1]

variable {ω σ ι : Type} [Widget ω] [Stage σ] [EventSource ι]

theorem Router.delivered_le_foldl_dispatch (events : List Event) (r : Router ω σ) :
    r.delivered ≤ (events.foldl dispatch r).delivered := by
  rw [foldl_dispatch]
  apply Nat.le_add_right

namespace Playback

theorem take_eq (count : Nat) (p : Playback ω σ ι) :
    p.take count =
      ((EventSource.pull count p.events).1,
        { router := (EventSource.pull count p.events).1.foldl Router.dispatch p.router,
          events := (EventSource.pull count p.events).2 }) := by
  induction count generalizing p with
  | zero => rfl
  | succ count ih =>
    unfold take EventSource.pull next?
    cases EventSource.next? p.events with
    | none => rfl
    | some pulled => simp only [ih, List.foldl_cons]

theorem router_take (count : Nat) (p : Playback ω σ (List Event)) :
    (p.take count).2.router = (p.events.take count).foldl Router.dispatch p.router := by
  rw [take_eq, EventSource.pull_list]

theorem delivered_take (count : Nat) (p : Playback ω σ (List Event)) :
    (p.take count).2.router.delivered =
      (List.range count).foldl (fun total place =>
        total + (p.take place).2.router.deliveredSince (p.take (place + 1)).2.router)
        p.router.delivered := by
  induction count with
  | zero => rfl
  | succ count ih =>
    have step : (p.take (count + 1)).2.router =
        (p.events[count]?.toList).foldl Router.dispatch (p.take count).2.router := by
      rw [router_take, router_take, List.take_add_one, List.foldl_append]
    -- What is delivered never becomes less, so the difference of the last step is no cut one.
    have le : (p.take count).2.router.delivered ≤ (p.take (count + 1)).2.router.delivered := by
      rw [step]
      apply Router.delivered_le_foldl_dispatch
    rw [List.range_succ, List.foldl_append, ← ih]
    simp only [Router.deliveredSince, List.foldl_cons, List.foldl_nil]
    omega

/--
After `count` pulls a playback has taken that many events, as they were, and left things as the rule
has it: each binding for each of them was tried once, in order. The router counts the trials that
succeeded, pull by pull, and has one failure for each of the others; the number that it returns for
an event is that of the trials for it that succeeded.
-/
theorem take_eq_follow (p : Playback ω σ (List Event)) (count : Nat) :
    let engine := p.router.engine
    let taken := p.events.take count
    let trials := engine.routing.trials taken
    let history := Trial.runAll engine.tempo engine.widgetNames trials p.router.ensemble
    p.take count =
      (taken, { router := p.router.follow history, events := p.events.drop count }) ∧
    history.1.map (·.trial) = trials ∧
    history.1.countP (·.isDelivered) + (history.1.filterMap (·.failure?)).length =
      trials.length ∧
    (p.take count).2.router.delivered =
      (List.range count).foldl (fun total place =>
        total + (p.take place).2.router.deliveredSince (p.take (place + 1)).2.router)
        p.router.delivered ∧
    ∀ (router : Router ω σ) (event : Event),
      (router.route event).1 =
        (Trial.runAll router.engine.tempo router.engine.widgetNames
          (router.engine.routing.trials [event]) router.ensemble).1.countP (·.isDelivered) ∧
      router.deliveredSince (router.dispatch event) = (router.route event).1 := by
  intro engine taken trials history
  have attempted : history.1.map (·.trial) = trials := by apply Trial.map_trial_runAll
  refine ⟨?_, attempted, ?_, ?_, ?_⟩
  · rw [take_eq, EventSource.pull_list, Router.foldl_dispatch]
  · rw [Attempt.countP_add_length_filterMap, ← attempted, List.length_map]
  · apply delivered_take
  · intro router event
    rw [Router.dispatch_eq, Router.route_eq]
    exact ⟨rfl, Nat.add_sub_cancel_left _ _⟩

end Playback

end Stagecraft
