import Stagecraft.Proofs.Director.Run
import Stagecraft.Stage.Rehearsal

/-!
This module contains the run of a storyboard as a left fold over its beats. How the beats are
divided into acts and shots makes no difference.
-/

namespace Stagecraft

namespace Beat

def invalidDuration? (beat : Beat) : Option Float :=
  match beat.duration with
  | some seconds => if seconds.isFinite ∧ 0 ≤ seconds then none else some seconds
  | none => none

def seconds (beat : Beat) (tempo : Tempo) : Float :=
  match beat.duration with
  | some seconds => seconds
  | none =>
    if beat.action = "wait" then
      tempo.timing.waits * tempo.factor
    else
      tempo.timing.base (tempo.bucket beat.action) * tempo.factor

theorem plannedTime_eq (beat : Beat) (tempo : Tempo) :
    beat.plannedTime tempo =
      match beat.invalidDuration? with
      | some seconds => .error (.config (.invalidDuration beat.action seconds))
      | none => .ok (beat.seconds tempo) := by
  unfold plannedTime invalidDuration? seconds
  cases beat.duration with
  | none =>
    by_cases h : beat.action = "wait"
    · simp only [Builtin.name, h, ↓reduceIte]
      rfl
    · simp only [Builtin.name, h, ↓reduceIte]
      rfl
  | some seconds =>
    by_cases h : seconds.isFinite ∧ 0 ≤ seconds
    · simp only [h, and_self, ↓reduceIte]
    · simp only [h, ↓reduceIte]

variable {ω σ : Type} [Stage σ]

def play (registry : Registry ω σ) (beat : Beat) (p : Performance ω σ) :
    Except Error TimingRecord × Performance ω σ :=
  match registry.actions.get? beat.action with
  | none =>
    let reason := RegistryError.notRegistered beat.action registry.names
    (.error (.orchestration (.unknownAction beat.action reason)), p)
  | some action =>
    match beat.invalidDuration? with
    | some seconds => (.error (.config (.invalidDuration beat.action seconds)), p)
    | none =>
      let planned := beat.seconds p.context.tempo
      let outcome := action beat.args planned p
      let actual := Stage.elapsed outcome.2.stage - Stage.elapsed p.stage
      (outcome.1.map fun () => { action := beat.action, planned, actual }, outcome.2)

theorem action_of_play {registry : Registry ω σ} {beat : Beat} {p after : Performance ω σ}
    {row : TimingRecord} (h : beat.play registry p = (.ok row, after)) :
    row.action = beat.action := by
  unfold play at h
  split at h
  · simp at h
  next action _ =>
    split at h
    · simp at h
    · dsimp only at h
      generalize action beat.args (beat.seconds p.context.tempo) p = outcome at h
      obtain ⟨result, performance⟩ := outcome
      cases result with
      | ok =>
        cases h
        rfl
      | error => simp [Except.map] at h

end Beat

namespace Show

variable {ω σ : Type}

theorem prepare_eq (registry : Registry ω σ) (beat : Beat) (s : Show ω σ) :
    prepare registry beat s =
      match registry.actions.get? beat.action with
      | none =>
        let reason := RegistryError.notRegistered beat.action registry.names
        .error (.orchestration (.unknownAction beat.action reason))
      | some action =>
        match beat.invalidDuration? with
        | some seconds => .error (.config (.invalidDuration beat.action seconds))
        | none => .ok (action, beat.seconds s.performance.context.tempo) := by
  unfold prepare Registry.find
  rw [Beat.plannedTime_eq]
  cases registry.actions.get? beat.action with
  | none => rfl
  | some action =>
    cases beat.invalidDuration? with
    | some seconds => rfl
    | none => rfl

variable [Stage σ]

theorem playBeat_eq (registry : Registry ω σ) (beat : Beat) (s : Show ω σ) :
    playBeat registry beat s =
      match beat.play registry s.performance with
      | (.ok row, performance) =>
        (.ok (), { performance, tracker := { records := s.tracker.records ++ [row] } })
      | (.error error, performance) => (.error error, { s with performance }) := by
  unfold playBeat Beat.play
  rw [prepare_eq]
  cases registry.actions.get? beat.action with
  | none => rfl
  | some action =>
    cases beat.invalidDuration? with
    | some seconds => rfl
    | none =>
      dsimp only
      generalize action beat.args (beat.seconds s.performance.context.tempo) s.performance = outcome
      obtain ⟨result, performance⟩ := outcome
      cases result with
      | ok => rfl
      | error => rfl

end Show

/--
How far some beats have been played: what there is, the rows of the beats that finished, and the
error of the one that did not.
-/
structure Progress (ω σ : Type) where
  performance : Performance ω σ
  rows : List TimingRecord := []
  error : Option Error := none

namespace Progress

variable {ω σ : Type}

def result (s : Progress ω σ) : Except Error Unit :=
  match s.error with
  | none => .ok ()
  | some error => .error error

def state (s : Progress ω σ) : RunState := if s.error.isNone then .completed else .failed

theorem result_eq_elim (s : Progress ω σ) : s.result = s.error.elim (.ok ()) .error := by
  unfold result
  cases s.error with
  | none => rfl
  | some error => rfl

theorem result_eq_ok_iff {s : Progress ω σ} : s.result = .ok () ↔ s.error = none := by
  unfold result
  cases s.error with
  | none => simp
  | some error => simp

theorem completed_or_failed (s : Progress ω σ) :
    (s.state = .completed ∧ s.result = .ok ()) ∨ (s.state = .failed ∧ s.result ≠ .ok ()) := by
  unfold state
  rw [ne_eq, result_eq_ok_iff]
  cases s.error with
  | none => simp
  | some error => simp

variable [Stage σ]

def play (registry : Registry ω σ) (s : Progress ω σ) (beat : Beat) : Progress ω σ :=
  match s.error with
  | some _ => s
  | none =>
    let outcome := beat.play registry s.performance
    match outcome.1 with
    | .ok row => { s with performance := outcome.2, rows := s.rows ++ [row] }
    | .error error => { s with performance := outcome.2, error := some error }

theorem play_of_ok {registry : Registry ω σ} {beat : Beat} {s : Progress ω σ} {row : TimingRecord}
    {performance : Performance ω σ} (h : s.error = none)
    (played : beat.play registry s.performance = (.ok row, performance)) :
    s.play registry beat = { performance, rows := s.rows ++ [row] } := by
  unfold play
  rw [h, played]

theorem play_of_error {registry : Registry ω σ} {beat : Beat} {s : Progress ω σ} {error : Error}
    {performance : Performance ω σ} (h : s.error = none)
    (played : beat.play registry s.performance = (.error error, performance)) :
    s.play registry beat = { performance, rows := s.rows, error := some error } := by
  unfold play
  rw [h, played]

theorem play_of_stopped {s : Progress ω σ} {error : Error} (h : s.error = some error)
    (registry : Registry ω σ) (beat : Beat) : s.play registry beat = s := by
  unfold play
  rw [h]

theorem foldl_play_of_error (registry : Registry ω σ) (beats : List Beat) (s : Progress ω σ)
    (error : Error) (h : s.error = some error) : beats.foldl (play registry) s = s := by
  induction beats with
  | nil => rfl
  | cons beat rest ih => rw [List.foldl_cons, play_of_stopped h, ih]

theorem untilFailure_playBeat (registry : Registry ω σ) (beats : List Beat) (s : Show ω σ) :
    let progress := beats.foldl (play registry)
      { performance := s.performance, rows := s.tracker.records }
    untilFailure (Show.playBeat registry) beats s =
      (progress.result,
        { performance := progress.performance, tracker := { records := progress.rows } }) := by
  induction beats generalizing s with
  | nil => rfl
  | cons beat rest ih =>
    -- The fold goes on over the beats after a failure, where it has no effect any more.
    rw [untilFailure_cons, Show.playBeat_eq, List.foldl_cons]
    cases played : beat.play registry s.performance with
    | mk result performance =>
      cases result with
      | ok row =>
        rw [play_of_ok rfl played]
        apply ih
      | error error =>
        rw [play_of_error rfl played, foldl_play_of_error registry rest _ error rfl]
        rfl

theorem exists_finished (registry : Registry ω σ) (beats : List Beat) (s : Progress ω σ)
    (h : s.error = none) :
    let progress := beats.foldl (play registry) s
    ∃ finished others, beats = finished ++ others ∧
      progress.rows.map (·.action) = s.rows.map (·.action) ++ finished.map (·.action) ∧
      (progress.error = none ↔ others = []) := by
  induction beats generalizing s with
  | nil => exact ⟨[], [], rfl, by simp, by simp [h]⟩
  | cons beat rest ih =>
    rw [List.foldl_cons]
    cases played : beat.play registry s.performance with
    | mk result performance =>
      cases result with
      | ok row =>
        rw [play_of_ok h played]
        obtain ⟨finished, others, rfl, rows, error⟩ :=
          ih { performance, rows := s.rows ++ [row] } rfl
        refine ⟨beat :: finished, others, rfl, ?_, error⟩
        rw [rows]
        simp [Beat.action_of_play played]
      | error error =>
        refine ⟨[], beat :: rest, rfl, ?_, ?_⟩
        · rw [play_of_error h played, foldl_play_of_error registry rest _ error rfl]
          simp
        · rw [play_of_error h played, foldl_play_of_error registry rest _ error rfl]
          simp

end Progress

namespace Director

variable {ω σ : Type} [Stage σ]

theorem run_of_notStarted {director : Director ω σ} (h : director.state = .notStarted)
    (p : Performance ω σ) :
    let progress := director.storyboard.beats.foldl (Progress.play director.registry)
      { performance := p, rows := director.tracker.records }
    director.run p =
      (progress.result,
        { director with tracker := { records := progress.rows }, state := progress.state },
        progress.performance) := by
  intro progress
  have state : (if progress.result.isOk then RunState.completed else .failed) =
      progress.state := by
    unfold Progress.result Progress.state
    cases progress.error with
    | none => rfl
    | some error => rfl
  rw [run_of_ready h, ← state, Progress.untilFailure_playBeat]
  rfl

theorem run_eq_progress (registry : Registry ω σ) (storyboard : Storyboard)
    (p : Performance ω σ) :
    let progress := storyboard.beats.foldl (Progress.play registry) { performance := p }
    ({ storyboard, registry } : Director ω σ).run p =
      (progress.result,
        { storyboard, registry, tracker := { records := progress.rows }, state := progress.state },
        progress.performance) :=
  run_of_notStarted rfl p

/--
A storyboard is played as its beats are, one after the other, up to the first that fails: each beat
that finished has its row in the record. Storyboards with the same beats are played alike.
-/
theorem run_eq_foldl (registry : Registry ω σ) (storyboard : Storyboard) (p : Performance ω σ) :
    let director : Director ω σ := { storyboard, registry }
    let progress := storyboard.beats.foldl (Progress.play registry) { performance := p }
    director.run p =
      (progress.result,
        { director with tracker := { records := progress.rows }, state := progress.state },
        progress.performance) ∧
    (∃ finished others, storyboard.beats = finished ++ others ∧
      progress.rows.map (·.action) = finished.map (·.action) ∧
      (progress.error = none ↔ others = [])) ∧
    ∀ script : Storyboard, script.beats = storyboard.beats →
      let other : Director ω σ := { storyboard := script, registry }
      (other.run p).1 = (director.run p).1 ∧
      (other.run p).2.1.tracker = (director.run p).2.1.tracker ∧
      (other.run p).2.1.state = (director.run p).2.1.state ∧
      (other.run p).2.2 = (director.run p).2.2 := by
  intro director progress
  refine ⟨?_, ?_, ?_⟩
  · apply run_eq_progress
  · exact Progress.exists_finished registry storyboard.beats { performance := p } rfl
  · intro script same other
    have played : other.run p = _ := run_eq_progress registry script p
    rw [same] at played
    rw [played, run_eq_progress registry storyboard p]
    simp

/--
A storyboard in one shot, and the same beats in acts and shots some of which are empty.
-/
theorem run_eq_run_of_one_shot :
    let first : Beat := { action := "show_title" }
    let second : Beat := { action := "wait", duration := some (-1.0) }
    let whole : Storyboard := {
      acts := [{ title := "whole", shots := [{ beats := [first, second] }] }] }
    let divided : Storyboard := {
      acts := [{ shots := [{}, { beats := [first] }] }, { title := "empty" },
        { shots := [{ beats := [second] }] }] }
    let p : Performance StockWidget Rehearsal := { context := {}, stage := {} }
    let played (storyboard : Storyboard) :=
      ({ storyboard, registry := .builtins } : Director StockWidget Rehearsal).run p
    divided.beats = whole.beats ∧ (played divided).1 = (played whole).1 := by
  intro first second whole divided p played
  have same : divided.beats = whole.beats := rfl
  exact ⟨same, ((run_eq_foldl .builtins whole p).2.2 divided same).1⟩

end Director

end Stagecraft
