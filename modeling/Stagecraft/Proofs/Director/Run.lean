import Stagecraft.Director
import Stagecraft.Proofs.Handler

/-!
This module contains what holds of runs of any actions. A storyboard is played like the one flat
list of its beats, and a run that fails has played the beats before the one that fails. The director
is running until then, or until no beat is left.
-/

namespace Stagecraft

theorem eq_ok_of_isOk {ε : Type} {result : Except ε Unit} (h : result.isOk = true) :
    result = .ok () := by
  cases result with
  | ok => rfl
  | error => cases h

def untilFailure {α ε s : Type} (step : α → s → Except ε Unit × s) :
    List α → s → Except ε Unit × s
  | [], state => (.ok (), state)
  | a :: rest, state =>
    match step a state with
    | (.ok (), state) => untilFailure step rest state
    | (.error error, state) => (.error error, state)

section UntilFailure

variable {α β ε s : Type} (step : α → s → Except ε Unit × s)

theorem untilFailure_cons (x : α) (xs : List α) (state : s) :
    untilFailure step (x :: xs) state =
      match step x state with
      | (.ok (), state) => untilFailure step xs state
      | (.error error, state) => (.error error, state) :=
  rfl

theorem untilFailure_append (xs ys : List α) (state : s) :
    untilFailure step (xs ++ ys) state =
      match untilFailure step xs state with
      | (.ok (), state) => untilFailure step ys state
      | (.error error, state) => (.error error, state) := by
  induction xs generalizing state with
  | nil => rfl
  | cons x rest ih =>
    rw [List.cons_append, untilFailure_cons, untilFailure_cons]
    generalize step x state = outcome
    obtain ⟨result, state⟩ := outcome
    cases result with
    | ok => exact ih state
    | error => rfl

theorem untilFailure_flatMap (f : β → List α) (xs : List β) (state : s) :
    untilFailure step (xs.flatMap f) state =
      untilFailure (fun x => untilFailure step (f x)) xs state := by
  induction xs generalizing state with
  | nil => rfl
  | cons x rest ih =>
    rw [List.flatMap_cons, untilFailure_append, untilFailure_cons]
    generalize untilFailure step (f x) state = outcome
    obtain ⟨result, state⟩ := outcome
    cases result with
    | ok => exact ih state
    | error => rfl

theorem exists_of_untilFailure_eq_error {xs : List α} {state after : s} {error : ε}
    (h : untilFailure step xs state = (.error error, after)) :
    ∃ done x rest reached, xs = done ++ x :: rest ∧
      untilFailure step done state = (.ok (), reached) ∧
      step x reached = (.error error, after) := by
  induction xs generalizing state with
  | nil => simp [untilFailure] at h
  | cons x rest ih =>
    unfold untilFailure at h
    split at h
    next reached taken =>
      obtain ⟨done, y, rest, last, rfl, played, failed⟩ := ih h
      refine ⟨x :: done, y, rest, last, rfl, ?_, failed⟩
      rw [untilFailure, taken]
      exact played
    next _ _ failed =>
      cases h
      exact ⟨[], x, rest, state, rfl, rfl, failed⟩

end UntilFailure

theorem Handler.on_forM {α state : Type} (step : α → Handler state Unit) (xs : List α) (s : state) :
    (xs.forM step).on s = untilFailure (fun x => (step x).on) xs s := by
  induction xs generalizing s with
  | nil => rfl
  | cons x rest ih =>
    rw [untilFailure_cons]
    change (step x >>= fun _ => rest.forM step).on s = _
    rw [on_bind]
    generalize (step x).on s = outcome
    obtain ⟨result, s⟩ := outcome
    cases result with
    | ok => exact ih s
    | error => rfl

namespace Director

variable {ω σ : Type}

theorem on_enter (state : RunState) (director : Director ω σ) (p : Performance ω σ) :
    (enter state).on (director, p) = (.ok (), { director with state }, p) := rfl

/--
What there is after beats have been played, with a director in `state` unless one of them failed.
-/
def settle (director : Director ω σ) (state : RunState) (outcome : Except Error Unit × Show ω σ) :
    Except Error Unit × Director ω σ × Performance ω σ :=
  (outcome.1,
    { director with
      tracker := outcome.2.tracker, state := if outcome.1.isOk then state else .failed },
    outcome.2.performance)

variable [Stage σ]

theorem on_playBeat (beat : Beat) (director : Director ω σ) (p : Performance ω σ) :
    (playBeat beat).on (director, p) =
      director.settle director.state
        (Show.playBeat director.registry beat
          { performance := p, tracker := director.tracker }) := by
  unfold playBeat
  simp only [Handler.on_bind, Handler.on_get]
  obtain ⟨result, s⟩ := Show.playBeat director.registry beat
    { performance := p, tracker := director.tracker }
  cases result with
  | ok => rfl
  | error error => rfl

/--
A director that is running keeps running as long as no beat fails.
-/
theorem untilFailure_playBeat (beats : List Beat) (director : Director ω σ) (p : Performance ω σ) :
    untilFailure (fun beat => (playBeat beat).on) beats (director, p) =
      director.settle director.state
        (untilFailure (Show.playBeat director.registry) beats
          { performance := p, tracker := director.tracker }) := by
  induction beats generalizing director p with
  | nil => rfl
  | cons beat rest ih =>
    rw [untilFailure_cons, untilFailure_cons, on_playBeat]
    obtain ⟨result, s⟩ := Show.playBeat director.registry beat
      { performance := p, tracker := director.tracker }
    cases result with
    | ok => exact ih _ _
    | error error => rfl

theorem on_forM_beats (storyboard : Storyboard) (s : Director ω σ × Performance ω σ) :
    (storyboard.acts.forM fun act =>
      act.shots.forM fun shot => shot.beats.forM playBeat : Handler _ Unit).on s =
        untilFailure (fun beat => (playBeat beat).on) storyboard.beats s := by
  unfold Storyboard.beats
  rw [Handler.on_forM, untilFailure_flatMap]
  congr 1
  funext act s
  rw [Handler.on_forM, untilFailure_flatMap]
  congr 1
  funext shot s
  rw [Handler.on_forM]

theorem run_of_ready {director : Director ω σ} (h : director.state = .notStarted)
    (p : Performance ω σ) :
    director.run p =
      director.settle .completed
        (untilFailure (Show.playBeat director.registry) director.storyboard.beats
          { performance := p, tracker := director.tracker }) := by
  unfold run play
  -- The director enters two states, and a beat that fails is all that can keep it from the second.
  simp only [Handler.on_bind, Handler.on_get, h, ne_eq, not_true_eq_false, if_false]
  rw [on_enter]
  dsimp only
  rw [on_forM_beats, untilFailure_playBeat]
  dsimp only
  generalize untilFailure (Show.playBeat director.registry) director.storyboard.beats _ = outcome
  obtain ⟨result, s⟩ := outcome
  cases result with
  | ok => rfl
  | error => rfl

theorem run_eq (registry : Registry ω σ) (storyboard : Storyboard) (p : Performance ω σ) :
    let outcome := untilFailure (Show.playBeat registry) storyboard.beats { performance := p }
    ({ storyboard, registry } : Director ω σ).run p =
      (outcome.1,
        { storyboard, registry, tracker := outcome.2.tracker,
          state := if outcome.1.isOk then .completed else .failed },
        outcome.2.performance) :=
  run_of_ready rfl p

end Director

end Stagecraft
