import Stagecraft.Proofs.Director.BeatFold

/-!
This module contains what becomes of a director that is run again and again. It plays in its first
run, and is settled from then on, whatever it is given.
-/

namespace Stagecraft

namespace Director

variable {ω σ : Type} [Stage σ]

/--
Runs a director on each of some performances, one after the other.
-/
def runAll : List (Performance ω σ) → Director ω σ →
    List (Except Error Unit × Performance ω σ) × Director ω σ
  | [], director => ([], director)
  | p :: others, director =>
    let (result, director, p) := director.run p
    let (outcomes, director) := runAll others director
    ((result, p) :: outcomes, director)

theorem run_of_started {director : Director ω σ} (h : director.state ≠ .notStarted)
    (p : Performance ω σ) :
    director.run p = (.error (.orchestration (.alreadyRun director.state)), director, p) := by
  unfold run play
  simp only [Handler.on_bind, Handler.on_get, ne_eq, h, not_false_eq_true, if_true]
  rfl

theorem runAll_of_started {director : Director ω σ} (h : director.state ≠ .notStarted)
    (calls : List (Performance ω σ)) :
    runAll calls director =
      (calls.map fun p => (.error (.orchestration (.alreadyRun director.state)), p), director) := by
  induction calls with
  | nil => rfl
  | cons p others ih =>
    unfold runAll
    rw [run_of_started h]
    dsimp only
    rw [ih, List.map_cons]

theorem settled_run {director : Director ω σ} (h : director.state = .notStarted)
    (p : Performance ω σ) :
    let first := director.run p
    (first.2.1.state = .completed ∧ first.1 = .ok ()) ∨
      (first.2.1.state = .failed ∧ first.1 ≠ .ok ()) := by
  rw [run_of_notStarted h]
  apply Progress.completed_or_failed

theorem runAll_of_notStarted {director : Director ω σ} (h : director.state = .notStarted)
    (p : Performance ω σ) (others : List (Performance ω σ)) :
    let first := director.run p
    let refusal := OrchestrationError.alreadyRun first.2.1.state
    runAll (p :: others) director =
      ((first.1, first.2.2) :: others.map fun q => (.error (.orchestration refusal), q),
        first.2.1) := by
  intro first refusal
  have started : first.2.1.state ≠ .notStarted := by
    obtain ⟨state, _⟩ | ⟨state, _⟩ := settled_run h p
    · simp [first, state]
    · simp [first, state]
  have later := runAll_of_started started others
  unfold runAll
  dsimp only
  rw [later]

theorem state_runAll {director : Director ω σ} (h : director.state = .notStarted)
    (calls : List (Performance ω σ)) :
    let state := (runAll calls director).2.state
    state ≠ .running ∧ (state = .notStarted ↔ calls = []) := by
  cases calls with
  | nil => simp [runAll, h]
  | cons p others =>
    rw [runAll_of_notStarted h]
    obtain ⟨state, _⟩ | ⟨state, _⟩ := settled_run h p
    · simp [state]
    · simp [state]

/--
Only the first run of a director plays beats, up to the first that fails. It leaves the director
completed or failed, and so it stays: all other runs are refused for that reason, and leave the
director and what they are given as they are.
-/
theorem runAll_single_pass (storyboard : Storyboard) (registry : Registry ω σ) (tracker : Tracker)
    (calls : List (Performance ω σ)) :
    let director : Director ω σ := { storyboard, registry, tracker }
    let state := (runAll calls director).2.state
    state ≠ .running ∧ (state = .notStarted ↔ calls = []) ∧
    ∀ p others,
      let first := director.run p
      let played := first.2.1
      let refusal := OrchestrationError.alreadyRun played.state
      runAll (p :: others) director =
        ((first.1, first.2.2) :: others.map fun q => (.error (.orchestration refusal), q),
          played) ∧
      ((played.state = .completed ∧ first.1 = .ok ()) ∨
        (played.state = .failed ∧ first.1 ≠ .ok ())) ∧
      ∃ finished rest, storyboard.beats = finished ++ rest ∧
        played.tracker.records.map (·.action) =
          tracker.records.map (·.action) ++ finished.map (·.action) ∧
        (first.1 = .ok () ↔ rest = []) := by
  intro director state
  have fresh : director.state = .notStarted := rfl
  obtain ⟨idle, notStarted⟩ := state_runAll fresh calls
  refine ⟨idle, notStarted, ?_⟩
  intro p others
  refine ⟨runAll_of_notStarted fresh p others, settled_run fresh p, ?_⟩
  have played := run_of_notStarted fresh p
  rw [played]
  dsimp only
  rw [Progress.result_eq_ok_iff]
  apply Progress.exists_finished
  rfl

end Director

end Stagecraft
