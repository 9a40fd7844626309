import Stagecraft.Proofs.Action.Builtin
import Stagecraft.Proofs.Director.BeatFold

/-!
This module contains what holds of beats that call built-in actions. Such a beat is made ready
before it has any effect, and nothing goes wrong afterwards.
-/

namespace Stagecraft

namespace Beat

variable {ω σ : Type}

/--
The action of a beat, made ready. That fails if no action has the name, if the duration of the beat
makes no sense, or if something is missing that the action needs, in this order.
-/
def cue (beat : Beat) (context : Context ω) : Except Error (Cue ω) :=
  match Builtin.ofName? beat.action with
  | none =>
    .error (.orchestration (.unknownAction beat.action (.notRegistered beat.action Builtin.names)))
  | some builtin =>
    match beat.invalidDuration? with
    | some seconds => .error (.config (.invalidDuration beat.action seconds))
    | none => Cue.ofArgs builtin beat.args context

theorem exists_ofArgs_of_cue {beat : Beat} {context : Context ω} {cue : Cue ω}
    (h : beat.cue context = .ok cue) :
    ∃ builtin, Builtin.ofName? beat.action = some builtin ∧ beat.invalidDuration? = none ∧
      Cue.ofArgs builtin beat.args context = .ok cue := by
  unfold Beat.cue at h
  split at h
  · cases h
  next builtin known =>
    split at h
    · cases h
    next valid => exact ⟨builtin, known, valid, h⟩

theorem exists_ready_of_cue {beat : Beat} {context : Context ω} {cue : Cue ω}
    (h : beat.cue context = .ok cue) :
    ∃ builtin, Builtin.ofName? beat.action = some builtin ∧ beat.invalidDuration? = none ∧
      Cue.Ready beat.args context builtin cue := by
  obtain ⟨builtin, known, valid, made⟩ := exists_ofArgs_of_cue h
  exact ⟨builtin, known, valid, Cue.ready_of_ofArgs made⟩

variable [Widget ω] [Stage σ]

theorem play_builtins_eq (beat : Beat) (p : Performance ω σ) :
    beat.play .builtins p =
      match beat.cue p.context with
      | .error error => (.error error, p)
      | .ok cue =>
        let planned := beat.seconds p.context.tempo
        let after := cue.perform planned p
        let actual := Stage.elapsed after.stage - Stage.elapsed p.stage
        (.ok { action := beat.action, planned, actual }, after) := by
  unfold play Beat.cue
  rw [Registry.get?_builtins, Registry.names_builtins]
  cases Builtin.ofName? beat.action with
  | none => rfl
  | some builtin =>
    cases beat.invalidDuration? with
    | some seconds => rfl
    | none =>
      dsimp only [Option.map_some]
      rw [Builtin.action_eq]
      cases Cue.ofArgs builtin beat.args p.context with
      | ok => rfl
      | error => rfl

end Beat

namespace Progress

variable {ω σ : Type} [Widget ω] [Stage σ]

/--
What there is after one more beat, whose action is ready.
-/
def perform (s : Progress ω σ) (beat : Beat) (cue : Cue ω) : Progress ω σ :=
  let planned := beat.seconds s.performance.context.tempo
  let performance := cue.perform planned s.performance
  let actual := Stage.elapsed performance.stage - Stage.elapsed s.performance.stage
  { s with performance, rows := s.rows ++ [{ action := beat.action, planned, actual }] }

theorem play_of_cue {s : Progress ω σ} {beat : Beat} {cue : Cue ω} (h : s.error = none)
    (ready : beat.cue s.performance.context = .ok cue) :
    s.play .builtins beat = s.perform beat cue := by
  have played := Beat.play_builtins_eq beat s.performance
  rw [ready] at played
  rw [play_of_ok h played]
  unfold perform
  rw [h]

theorem play_of_flaw {s : Progress ω σ} {beat : Beat} {error : Error} (h : s.error = none)
    (flaw : beat.cue s.performance.context = .error error) :
    s.play .builtins beat = { s with error := some error } := by
  have played := Beat.play_builtins_eq beat s.performance
  rw [flaw] at played
  rw [play_of_error h played]

/--
What is kept by every action that is performed, and does not look at the error, holds at the end of
every run.
-/
theorem foldl_play_induction {motive : Progress ω σ → Prop} {beats : List Beat} {s : Progress ω σ}
    (start : motive s)
    (flaw : ∀ s error, motive s → motive { s with error := some error })
    (cue : ∀ s beat cue, beat ∈ beats → beat.cue s.performance.context = .ok cue → motive s →
      motive (s.perform beat cue)) : motive (beats.foldl (play .builtins) s) := by
  induction beats generalizing s with
  | nil => exact start
  | cons beat rest ih =>
    rw [List.foldl_cons]
    apply ih
    · cases h : s.error with
      | some error =>
        rw [play_of_stopped h]
        exact start
      | none =>
        cases ready : beat.cue s.performance.context with
        | error error =>
          rw [play_of_flaw h ready]
          exact flaw s error start
        | ok made =>
          rw [play_of_cue h ready]
          exact cue s beat made List.mem_cons_self ready start
    · intro s other made mem
      exact cue s other made (List.mem_cons_of_mem beat mem)

end Progress

end Stagecraft
