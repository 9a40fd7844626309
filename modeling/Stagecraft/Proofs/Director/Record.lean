import Stagecraft.Proofs.Director.BuiltinBeat

/-!
This module contains what a run of the built-in actions writes down. It has one row for each beat
that finished, planned for the seconds of the beat at the tempo that the run began with, and the
readings of the clock that the rows were made from follow each other.
-/

namespace Stagecraft

def Beat.plan (tempo : Tempo) (beat : Beat) : String × Float := (beat.action, beat.seconds tempo)

def TimingRecord.plan (row : TimingRecord) : String × Float := (row.action, row.planned)

namespace Progress

variable {ω σ : Type} [Widget ω] [Stage σ]

theorem tempo_perform (s : Progress ω σ) (beat : Beat) (cue : Cue ω) :
    (s.perform beat cue).performance.context.tempo = s.performance.context.tempo := by
  obtain ⟨_, _, _, _, left⟩ :=
    cue.exists_context_perform (beat.seconds s.performance.context.tempo) s.performance
  dsimp only [perform]
  rw [left]

/--
The rows that are added are those of the beats that finished, each as it was planned.
-/
theorem exists_planned (beats : List Beat) {s : Progress ω σ} (h : s.error = none) :
    let played := beats.foldl (play .builtins) s
    ∃ finished others, beats = finished ++ others ∧
      played.rows.map (·.plan) =
        s.rows.map (·.plan) ++ finished.map (·.plan s.performance.context.tempo) ∧
      (∀ beat ∈ finished, beat.invalidDuration? = none) ∧
      (played.error = none ↔ others = []) := by
  induction beats generalizing s with
  | nil => exact ⟨[], [], rfl, by simp, by simp, by simp [h]⟩
  | cons beat rest ih =>
    rw [List.foldl_cons]
    cases ready : beat.cue s.performance.context with
    | ok cue =>
      obtain ⟨_, _, valid, _⟩ := Beat.exists_ready_of_cue ready
      rw [play_of_cue h ready]
      obtain ⟨finished, others, rfl, rows, checked, error⟩ := ih (s := s.perform beat cue) h
      refine ⟨beat :: finished, others, rfl, ?_, ?_, error⟩
      · rw [rows, tempo_perform]
        simp [perform, Beat.plan, TimingRecord.plan]
      · exact List.forall_mem_cons.mpr ⟨valid, checked⟩
    | error error =>
      rw [play_of_flaw h ready, foldl_play_of_error .builtins rest _ error rfl]
      exact ⟨[], beat :: rest, rfl, by simp, by simp, by simp⟩

end Progress

/--
A run that completes has planned all beats, each at the tempo that the run began with.
-/
theorem Director.plan_records_of_ok {ω σ : Type} [Widget ω] [Stage σ] {storyboard : Storyboard}
    {p : Performance ω σ}
    (h : (({ storyboard, registry := .builtins } : Director ω σ).run p).1 = .ok ()) :
    (({ storyboard, registry := .builtins } : Director ω σ).run p).2.1.tracker.records.map
        (·.plan) = storyboard.beats.map (·.plan p.context.tempo) := by
  obtain ⟨finished, others, beats, rows, _, error⟩ :=
    Progress.exists_planned storyboard.beats (s := { performance := p }) rfl
  rw [run_eq_progress] at h ⊢
  rw [error.mp (Progress.result_eq_ok_iff.mp h), List.append_nil] at beats
  rw [← beats] at rows
  exact rows

end Stagecraft
