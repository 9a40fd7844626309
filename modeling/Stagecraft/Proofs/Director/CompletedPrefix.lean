import Stagecraft.Proofs.Director.StaticCheck

/-!
This module contains what is left by a run of the built-in actions that fails: the work of the beats
before the one that fails, and nothing of that one.
-/

namespace Stagecraft

variable {ω σ : Type} [Stage σ]

theorem Show.length_records {registry : Registry ω σ} {beats : List Beat} {s after : Show ω σ}
    (h : untilFailure (playBeat registry) beats s = (.ok (), after)) :
    after.tracker.records.length = s.tracker.records.length + beats.length := by
  induction beats generalizing s with
  | nil =>
    cases h
    rfl
  | cons beat rest ih =>
    rw [untilFailure_cons, playBeat_eq] at h
    cases played : beat.play registry s.performance with
    | mk result performance =>
      rw [played] at h
      cases result with
      | ok row =>
        rw [ih h]
        simp
        omega
      | error =>
        cases h

variable [Widget ω]

namespace Show

theorem eq_of_playBeat_builtins {beat : Beat} {s after : Show ω σ} {error : Error}
    (h : playBeat .builtins beat s = (.error error, after)) : after = s := by
  rw [playBeat_eq, Beat.play_builtins_eq] at h
  cases ready : beat.cue s.performance.context with
  | ok cue =>
    rw [ready] at h
    cases h
  | error =>
    rw [ready] at h
    cases h
    rfl

theorem exists_playBeat_builtins {beat : Beat}
    (h : Builtin.ofName? beat.action = none ∨ beat.invalidDuration?.isSome = true)
    (s : Show ω σ) : ∃ error, playBeat .builtins beat s = (.error error, s) := by
  rw [playBeat_eq, Beat.play_builtins_eq]
  unfold Beat.cue
  cases known : Builtin.ofName? beat.action with
  | none => exact ⟨_, rfl⟩
  | some builtin =>
    rw [known] at h
    have invalid : beat.invalidDuration?.isSome = true := by simpa using h
    obtain ⟨seconds, duration⟩ := Option.isSome_iff_exists.mp invalid
    rw [duration]
    exact ⟨_, rfl⟩

end Show

namespace Builtin

/--
The events of a scenario are refused as a whole if one of the items is no event.
-/
theorem action_playEvents_of_mem {items : List Value} {item : Value} {fault : Fault} {args : Args}
    {p : Performance ω σ} (staged : p.context.engine.isSome = true)
    (scripted : p.context.adapter = some .scripted)
    (listed : ((args.get? "scenario").getD p.context.scenario).member? "events" =
      some (.array items))
    (mem : item ∈ items) (refused : Event.schema.decodeValue item = .error fault)
    (seconds : Float) :
    ∃ first, playEvents.action args seconds p = (.error (.document first), p) := by
  let venue : Venue := {
    hasEngine := true, script := some none, scenario := p.context.scenario }
  have fits : venue.Fits p.context := ⟨staged, scripted, rfl⟩
  have flaw : (items.findSome? Event.flaw?).isSome = true := by
    rw [List.findSome?_isSome_iff]
    refine ⟨item, mem, ?_⟩
    rw [Event.flaw?, refused]
    rfl
  obtain ⟨error, found⟩ := Option.isSome_iff_exists.mp flaw
  obtain ⟨other, _, first⟩ := List.exists_of_findSome?_eq_some found
  obtain ⟨fault, _, rfl⟩ := Option.map_eq_some_iff.mp first
  have refused : error? (Cue.ofArgs .playEvents args p.context) = some (.document fault) := by
    rw [Cue.error?_ofArgs fits, flaw?]
    simp only [Venue.engineFlaw?, Venue.eventsFlaw?, Adapter.listFlaw?, venue, listed, found]
    rfl
  refine ⟨fault, ?_⟩
  rw [action_eq, error?_eq_some_iff.mp refused]

end Builtin

namespace Director

theorem exists_prefix_of_run_builtins {storyboard : Storyboard} {p left : Performance ω σ}
    {error : Error} {failed : Director ω σ}
    (h : ({ storyboard, registry := .builtins } : Director ω σ).run p =
      (.error error, failed, left)) :
    failed.state = .failed ∧
    ∃ k beat, storyboard.beats[k]? = some beat ∧ failed.tracker.records.length = k ∧
      (∀ first : Storyboard, first.beats = storyboard.beats.take k →
        ({ storyboard := first, registry := .builtins } : Director ω σ).run p =
          (.ok (), { failed with storyboard := first, state := .completed }, left)) ∧
      let s : Show ω σ := { performance := left, tracker := failed.tracker }
      Show.playBeat .builtins beat s = (.error error, s) := by
  rw [run_eq] at h
  generalize played : untilFailure (Show.playBeat .builtins) storyboard.beats { performance := p } =
    outcome at h
  obtain ⟨result, last⟩ := outcome
  cases h
  obtain ⟨done, beat, rest, reached, beats, before, failed⟩ :=
    exists_of_untilFailure_eq_error _ played
  -- The failing beat has had no effect, so what is left is what the beats before it have reached.
  obtain rfl := Show.eq_of_playBeat_builtins failed
  refine ⟨rfl, done.length, beat, ?_, ?_, ?_, failed⟩
  · rw [beats]
    simp
  · rw [Show.length_records before]
    simp
  · intro first same
    rw [beats, List.take_left] at same
    rw [run_eq, same, before]
    rfl

/--
A run of built-in actions that fails leaves what a run of the beats before the failing one leaves,
and that run completes. No beat and no action that fails has any effect, and neither have the events
of a scenario that lists anything that is no event.
-/
theorem run_builtins_of_error (storyboard : Storyboard) (p : Performance ω σ) :
    (∀ error failed left,
      ({ storyboard, registry := .builtins } : Director ω σ).run p = (.error error, failed, left) →
      failed.state = .failed ∧
      ∃ k beat, storyboard.beats[k]? = some beat ∧ failed.tracker.records.length = k ∧
        (∀ first : Storyboard, first.beats = storyboard.beats.take k →
          ({ storyboard := first, registry := .builtins } : Director ω σ).run p =
            (.ok (), { failed with storyboard := first, state := .completed }, left)) ∧
        let s : Show ω σ := { performance := left, tracker := failed.tracker }
        Show.playBeat .builtins beat s = (.error error, s)) ∧
    (∀ (beat : Beat) (s : Show ω σ),
      Builtin.ofName? beat.action = none ∨ beat.invalidDuration?.isSome = true →
        ∃ error, Show.playBeat .builtins beat s = (.error error, s)) ∧
    (∀ (builtin : Builtin) args seconds (q after : Performance ω σ) error,
      builtin.action args seconds q = (.error error, after) → after = q) ∧
    ∀ args seconds (q : Performance ω σ) items item fault,
      q.context.engine.isSome = true → q.context.adapter = some .scripted →
      ((args.get? "scenario").getD q.context.scenario).member? "events" = some (.array items) →
      item ∈ items → Event.schema.decodeValue item = .error fault →
        ∃ first, Builtin.playEvents.action args seconds q = (.error (.document first), q) := by
  refine ⟨?_, ?_, ?_, ?_⟩
  · intro error failed left h
    exact exists_prefix_of_run_builtins h
  · intro beat s rejected
    exact Show.exists_playBeat_builtins rejected s
  · intro builtin args seconds q after error failed
    exact Builtin.action_of_error failed
  · intro args seconds q items item fault staged scripted listed mem refused
    exact Builtin.action_playEvents_of_mem staged scripted listed mem refused seconds

/--
A beat that names no action leaves what the waiting before it has left.
-/
theorem run_builtins_of_unknown_action :
    let pause : Beat := { action := "wait" }
    let unknown : Beat := { action := "dance" }
    let whole : Director StockWidget Rehearsal := {
      storyboard := { acts := [{ shots := [{ beats := [pause, unknown] }] }] }
      registry := .builtins }
    let pauses : Director StockWidget Rehearsal := {
      storyboard := { acts := [{ shots := [{ beats := [pause] }] }] }, registry := .builtins }
    let p : Performance StockWidget Rehearsal := { context := {}, stage := {} }
    (whole.run p).1.isOk = false ∧ (pauses.run p).1 = .ok () ∧
    (pauses.run p).2.2 = (whole.run p).2.2 := by
  intro pause unknown whole pauses p
  let error : Error :=
    .orchestration (.unknownAction "dance" (.notRegistered "dance" Builtin.names))
  have failed : whole.run p = (.error error, (whole.run p).2) := rfl
  obtain ⟨_, k, _, _, rows, completes, _⟩ :=
    (run_builtins_of_error whole.storyboard p).1 error (whole.run p).2.1 (whole.run p).2.2 failed
  have one : (whole.run p).2.1.tracker.records.length = 1 := rfl
  rw [← rows, one] at completes
  have ran : pauses.run p = _ := completes pauses.storyboard rfl
  rw [ran, failed]
  exact ⟨rfl, rfl, rfl⟩

end Director

end Stagecraft
