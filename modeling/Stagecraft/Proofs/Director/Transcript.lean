import Stagecraft.Proofs.Action.Effect
import Stagecraft.Proofs.Director.BuiltinBeat

/-!
This module contains the transcript of a run: what a run of the built-in actions does, without the
stage that it does it on. In a scene of stock widgets a run is its transcript, and what is left on
the stage is what the operations of the transcript make of it.
-/

namespace Stagecraft

structure Transcript where
  context : Context StockWidget
  ops : List StageOp := []
  actions : List String := []
  error : Option Error := none

namespace Transcript

def result (t : Transcript) : Except Error Unit := t.error.elim (.ok ()) .error

theorem result_eq_ok_iff {t : Transcript} : t.result = .ok () ↔ t.error = none := by
  unfold result
  cases t.error with
  | none => simp
  | some error => simp

def state (t : Transcript) : RunState := if t.error.isNone then .completed else .failed

def perform (t : Transcript) (beat : Beat) (cue : Cue StockWidget) : Transcript :=
  { t with
    context := cue.after t.context
    ops := t.ops ++ cue.ops (beat.seconds t.context.tempo)
    actions := t.actions ++ [beat.action] }

def play (t : Transcript) (beat : Beat) : Transcript :=
  match t.error with
  | some _ => t
  | none =>
    match beat.cue t.context with
    | .error error => { t with error := some error }
    | .ok cue => t.perform beat cue

theorem play_of_error {t : Transcript} {error : Error} (h : t.error = some error) (beat : Beat) :
    t.play beat = t := by
  unfold play
  rw [h]

theorem play_of_flaw {t : Transcript} {beat : Beat} {error : Error} (h : t.error = none)
    (flaw : beat.cue t.context = .error error) : t.play beat = { t with error := some error } := by
  unfold play
  rw [h]
  dsimp only
  rw [flaw]

theorem play_of_cue {t : Transcript} {beat : Beat} {cue : Cue StockWidget} (h : t.error = none)
    (ready : beat.cue t.context = .ok cue) : t.play beat = t.perform beat cue := by
  unfold play
  rw [h]
  dsimp only
  rw [ready]

theorem foldl_play_of_error {t : Transcript} {error : Error} (h : t.error = some error)
    (beats : List Beat) : beats.foldl play t = t := by
  induction beats with
  | nil => rfl
  | cons beat rest ih => rw [List.foldl_cons, play_of_error h, ih]

theorem error_eq_none_of_foldl_play {t : Transcript} {beats : List Beat}
    (h : (beats.foldl play t).error = none) : t.error = none := by
  cases stopped : t.error with
  | none => rfl
  | some error =>
    rw [foldl_play_of_error stopped, stopped] at h
    cases h

theorem exists_cue_of_play {t : Transcript} {beat : Beat} (h : (t.play beat).error = none) :
    ∃ cue, beat.cue t.context = .ok cue ∧ t.play beat = t.perform beat cue := by
  have ran : ([beat].foldl play t).error = none := h
  have going := error_eq_none_of_foldl_play ran
  cases ready : beat.cue t.context with
  | error error =>
    rw [play_of_flaw going ready] at h
    cases h
  | ok cue => exact ⟨cue, rfl, play_of_cue going ready⟩

/--
What is kept by every action that is performed, and does not look at the error, holds at the end of
every run.
-/
theorem foldl_play_induction {motive : Transcript → Prop} {beats : List Beat} {t : Transcript}
    (start : motive t)
    (flaw : ∀ t error, motive t → motive { t with error := some error })
    (cue : ∀ t beat cue, beat ∈ beats → beat.cue t.context = .ok cue → motive t →
      motive (t.perform beat cue)) : motive (beats.foldl play t) := by
  induction beats generalizing t with
  | nil => exact start
  | cons beat rest ih =>
    rw [List.foldl_cons]
    apply ih
    · cases h : t.error with
      | some error =>
        rw [play_of_error h]
        exact start
      | none =>
        cases ready : beat.cue t.context with
        | error error =>
          rw [play_of_flaw h ready]
          exact flaw t error start
        | ok made =>
          rw [play_of_cue h ready]
          exact cue t beat made List.mem_cons_self ready start
    · intro t other made mem
      exact cue t other made (List.mem_cons_of_mem beat mem)

variable {σ : Type} [Stage σ]

/--
A transcript tells what is there after some beats that were played from the stage `start` on.
-/
structure Tells (start : σ) (t : Transcript) (s : Progress StockWidget σ) : Prop where
  context : s.performance.context = t.context
  stage : s.performance.stage = t.ops.foldl Stage.perform start
  actions : s.rows.map (·.action) = t.actions
  error : s.error = t.error

theorem Tells.play {start : σ} {t : Transcript} {s : Progress StockWidget σ} (h : t.Tells start s)
    (beat : Beat) : (t.play beat).Tells start (s.play .builtins beat) := by
  cases stopped : t.error with
  | some error =>
    rw [play_of_error stopped, Progress.play_of_stopped (h.error.trans stopped)]
    exact h
  | none =>
    have going : s.error = none := h.error.trans stopped
    cases ready : beat.cue t.context with
    | error error =>
      have flaw := ready
      rw [← h.context] at flaw
      rw [play_of_flaw stopped ready, Progress.play_of_flaw going flaw]
      exact ⟨h.context, h.stage, h.actions, rfl⟩
    | ok cue =>
      have also := ready
      rw [← h.context] at also
      rw [play_of_cue stopped ready, Progress.play_of_cue going also]
      dsimp only [Progress.perform]
      rw [Cue.perform_eq, h.context]
      refine ⟨rfl, ?_, ?_, h.error⟩
      · dsimp only [perform]
        rw [List.foldl_append, h.stage]
      · simp [perform, h.actions]

theorem Tells.foldl_play {start : σ} {t : Transcript} {s : Progress StockWidget σ}
    (h : t.Tells start s) (beats : List Beat) :
    (beats.foldl Transcript.play t).Tells start (beats.foldl (Progress.play .builtins) s) := by
  induction beats generalizing t s with
  | nil => exact h
  | cons beat rest ih => exact ih (h.play beat)

end Transcript

namespace Storyboard

def transcript (storyboard : Storyboard) (context : Context StockWidget) : Transcript :=
  storyboard.beats.foldl Transcript.play { context }

end Storyboard

theorem Director.run_eq_transcript {σ : Type} [Stage σ] (storyboard : Storyboard)
    (p : Performance StockWidget σ) :
    let transcript := storyboard.transcript p.context
    let outcome := ({ storyboard, registry := .builtins } : Director StockWidget σ).run p
    outcome.1 = transcript.result ∧ outcome.2.1.state = transcript.state ∧
    outcome.2.1.tracker.records.map (·.action) = transcript.actions ∧
    outcome.2.2 =
      { context := transcript.context
        stage := transcript.ops.foldl Stage.perform p.stage } := by
  intro transcript outcome
  have ran : outcome = _ := run_eq_progress .builtins storyboard p
  have start : Transcript.Tells p.stage { context := p.context } { performance := p } :=
    ⟨rfl, rfl, rfl, rfl⟩
  have tells : transcript.Tells p.stage _ := start.foldl_play storyboard.beats
  rw [ran]
  refine ⟨?_, ?_, tells.actions, ?_⟩
  · dsimp only
    rw [Progress.result_eq_elim, tells.error]
    rfl
  · dsimp only
    rw [Progress.state, tells.error]
    rfl
  · dsimp only
    rw [← tells.context, ← tells.stage]

end Stagecraft
