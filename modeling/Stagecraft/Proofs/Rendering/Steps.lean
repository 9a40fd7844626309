import Stagecraft.Outcome
import Stagecraft.Proofs.Director.Run
import Stagecraft.Proofs.Document.Kinds
import Stagecraft.Table.Lemmas

/-!
This module contains the steps of a rendering. What a rendering comes to is decided by the first
step that fails, and what only later steps look at makes no difference to it. Files are written if
none fails, and what they hold is the record of a run.
-/

namespace Stagecraft

/--
What a script comes to be before it is played.
-/
structure Setup where
  settings : Settings
  timing : Timing
  scene : SceneSpec
  engine : Engine StockWidget
  storyboard : Storyboard
  scenario : Value

/--
The run of a new director.
-/
def Setup.play (p : Setup) : Except Error Unit × Director StockWidget Rehearsal ×
    Performance StockWidget Rehearsal :=
  let director : Director StockWidget Rehearsal :=
    { storyboard := p.storyboard, registry := .builtins }
  let context := (Context.ofEngine p.engine).withAdapter .scripted p.scenario
  director.run { context, stage := {} }

namespace Script

/--
The steps of a rendering.
-/
inductive Step where
  | settings
  | mode
  | scene
  | engine
  | bindings
  | storyboard
  | scenario
  | run
  deriving DecidableEq, Repr

/--
The place of a step in the order in which they are taken.
-/
def Step.place : Step → Nat
  | settings => 0
  | mode => 1
  | scene => 2
  | engine => 3
  | bindings => 4
  | storyboard => 5
  | scenario => 6
  | run => 7

/--
The live scene of a script, and what it is made from.
-/
structure Builds (s : Script) (settings : Settings) (timing : Timing) (scene : SceneSpec)
    (engine : Engine StockWidget) : Prop where
  read : s.readSettings = .ok settings
  timed : s.timing settings = .ok timing
  decoded : s.scene.decode SceneSpec.schema = .ok scene
  built : Engine.build .stock scene timing = .ok engine
  valid : settings.strictBindings = true → engine.validateBindings = .ok ()

/--
What a script is made into. A storyboard and a scenario that are not given are made up.
-/
structure Prepares (s : Script) (p : Setup) : Prop where
  builds : s.Builds p.settings p.timing p.scene p.engine
  storyboard : ∀ file, s.storyboard = some file → file.decode Storyboard.schema = .ok p.storyboard
  fallback : s.storyboard = none → p.storyboard = .fallback p.engine.algorithm
  scenario : ∀ file, s.scenario = some file → file.decode .value = .ok p.scenario
  noScenario : s.scenario = none → p.scenario = .null

/--
The ways in which a step fails. A step that reads a file of its own does so whatever went before;
the others are made from what was made before.
-/
inductive Fails (s : Script) : Step → Error → Prop where
  | settings {error : Error} (h : s.readSettings = .error error) : s.Fails .settings error
  | mode {settings : Settings} {error : Error} (read : s.readSettings = .ok settings)
    (h : s.timing settings = .error error) : s.Fails .mode error
  | scene {error : Error} (h : s.scene.decode SceneSpec.schema = .error error) :
    s.Fails .scene error
  | engine {settings : Settings} {timing : Timing} {scene : SceneSpec} {error : Error}
    (read : s.readSettings = .ok settings) (timed : s.timing settings = .ok timing)
    (decoded : s.scene.decode SceneSpec.schema = .ok scene)
    (h : Engine.build .stock scene timing = .error error) : s.Fails .engine error
  | bindings {settings : Settings} {timing : Timing} {scene : SceneSpec}
    {engine : Engine StockWidget} {error : Error} (read : s.readSettings = .ok settings)
    (timed : s.timing settings = .ok timing)
    (decoded : s.scene.decode SceneSpec.schema = .ok scene)
    (built : Engine.build .stock scene timing = .ok engine)
    (strict : settings.strictBindings = true) (h : engine.validateBindings = .error error) :
    s.Fails .bindings error
  | storyboard {file : File} {error : Error} (given : s.storyboard = some file)
    (h : file.decode Storyboard.schema = .error error) : s.Fails .storyboard error
  | scenario {file : File} {error : Error} (given : s.scenario = some file)
    (h : file.decode .value = .error error) : s.Fails .scenario error
  | run {p : Setup} {error : Error} (prepared : s.Prepares p) (h : p.play.1 = .error error) :
    s.Fails .run error

def Clears (s : Script) (step : Step) : Prop := ∀ error, ¬s.Fails step error

/--
Whether a step is the first one that fails.
-/
def FailsFirst (s : Script) (step : Step) (error : Error) : Prop :=
  s.Fails step error ∧ ∀ earlier, earlier.place < step.place → s.Clears earlier

variable {s t : Script} {p : Setup} {step : Step} {error : Error}

theorem exists_first (s : Script) :
    (∀ step, s.Clears step) ∨ ∃ step error, s.FailsFirst step error := by
  apply or_iff_not_imp_left.mpr
  intro h
  obtain ⟨step, fails⟩ : ∃ step, ¬s.Clears step := not_forall.mp h
  induction place : step.place using Nat.strong_induction_on generalizing step with
  | _ n ih =>
    by_cases clear : ∀ earlier, earlier.place < step.place → s.Clears earlier
    · obtain ⟨error, failed⟩ := not_forall_not.mp fails
      exact ⟨step, error, failed, clear⟩
    · simp only [not_forall] at clear
      obtain ⟨earlier, before, fails⟩ := clear
      exact ih earlier.place (place ▸ before) earlier fails rfl

theorem exists_builds (h : ∀ step, step.place < Step.storyboard.place → s.Clears step) :
    ∃ settings timing scene engine, s.Builds settings timing scene engine := by
  obtain ⟨settings, read⟩ := exists_of_ne_error fun error failed =>
    h .settings (by decide) error (.settings failed)
  obtain ⟨timing, timed⟩ := exists_of_ne_error fun error failed =>
    h .mode (by decide) error (.mode read failed)
  obtain ⟨scene, decoded⟩ := exists_of_ne_error fun error failed =>
    h .scene (by decide) error (.scene failed)
  obtain ⟨engine, built⟩ := exists_of_ne_error fun error failed =>
    h .engine (by decide) error (.engine read timed decoded failed)
  refine ⟨settings, timing, scene, engine, read, timed, decoded, built, ?_⟩
  intro strict
  obtain ⟨_, valid⟩ := exists_of_ne_error fun error failed =>
    h .bindings (by decide) error (.bindings read timed decoded built strict failed)
  exact valid

theorem readStoryboard_eq_ok_iff {algorithm : String} {storyboard : Storyboard} :
    s.readStoryboard algorithm = .ok storyboard ↔
      (∀ file, s.storyboard = some file → file.decode Storyboard.schema = .ok storyboard) ∧
      (s.storyboard = none → storyboard = .fallback algorithm) := by
  unfold readStoryboard
  cases s.storyboard with
  | none => simp [eq_comm]
  | some file => simp

theorem readScenario_eq_ok_iff {scenario : Value} :
    s.readScenario = .ok scenario ↔
      (∀ file, s.scenario = some file → file.decode .value = .ok scenario) ∧
      (s.scenario = none → scenario = .null) := by
  unfold readScenario
  cases s.scenario with
  | none => simp [eq_comm]
  | some file => simp

theorem readStoryboard_eq_error_iff {algorithm : String} :
    s.readStoryboard algorithm = .error error ↔ s.Fails .storyboard error := by
  unfold readStoryboard
  constructor
  · intro failed
    split at failed
    next file given => exact .storyboard given failed
    · cases failed
  · rintro ⟨⟩
    next file given failed =>
      rw [given]
      exact failed

theorem readScenario_eq_error_iff : s.readScenario = .error error ↔ s.Fails .scenario error := by
  unfold readScenario
  constructor
  · intro failed
    split at failed
    next file given => exact .scenario given failed
    · cases failed
  · rintro ⟨⟩
    next file given failed =>
      rw [given]
      exact failed

theorem exists_readStoryboard (h : s.Clears .storyboard) (algorithm : String) :
    ∃ storyboard, s.readStoryboard algorithm = .ok storyboard :=
  exists_of_ne_error fun error failed => h error (readStoryboard_eq_error_iff.mp failed)

theorem exists_readScenario (h : s.Clears .scenario) : ∃ scenario, s.readScenario = .ok scenario :=
  exists_of_ne_error fun error failed => h error (readScenario_eq_error_iff.mp failed)

/--
A script of which no step before the run fails is made into something that can be played.
-/
theorem exists_prepares (h : ∀ step, step.place < Step.run.place → s.Clears step) :
    ∃ p, s.Prepares p := by
  obtain ⟨settings, timing, scene, engine, builds⟩ := exists_builds fun step before =>
    h step (Nat.lt_trans before (by decide))
  obtain ⟨storyboard, read⟩ := exists_readStoryboard (h .storyboard (by decide)) engine.algorithm
  obtain ⟨scenario, listed⟩ := exists_readScenario (h .scenario (by decide))
  obtain ⟨given, fallback⟩ := readStoryboard_eq_ok_iff.mp read
  obtain ⟨named, absent⟩ := readScenario_eq_ok_iff.mp listed
  exact ⟨⟨settings, timing, scene, engine, storyboard, scenario⟩, builds, given, fallback, named,
    absent⟩

theorem Builds.engine_eq {settings : Settings} {timing : Timing} {scene : SceneSpec}
    {engine : Engine StockWidget} (h : s.Builds settings timing scene engine) :
    s.engine settings timing = .ok engine := by
  unfold Script.engine
  rw [bind_of_eq_ok h.decoded, bind_of_eq_ok h.built]
  split
  next strict =>
    rw [h.valid strict]
    rfl
  · rfl

theorem Prepares.render_eq (h : s.Prepares p) :
    s.render = do
      let (result, director, performance) := p.play
      result
      return { tracker := director.tracker, context := performance.context,
               stage := performance.stage } := by
  unfold render
  rw [bind_of_eq_ok h.builds.read, bind_of_eq_ok h.builds.timed, bind_of_eq_ok h.builds.engine_eq,
    bind_of_eq_ok (readStoryboard_eq_ok_iff.mpr ⟨h.storyboard, h.fallback⟩),
    bind_of_eq_ok (readScenario_eq_ok_iff.mpr ⟨h.scenario, h.noScenario⟩)]
  rfl

theorem render_of_engine_error {settings : Settings} {timing : Timing}
    (read : s.readSettings = .ok settings) (timed : s.timing settings = .ok timing)
    (failed : s.engine settings timing = .error error) : s.render = .error error := by
  unfold render
  rw [bind_of_eq_ok read, bind_of_eq_ok timed, bind_of_eq_error failed]

/--
The first step that fails decides what a rendering comes to.
-/
theorem FailsFirst.render_eq (h : s.FailsFirst step error) : s.render = .error error := by
  obtain ⟨fails, clear⟩ := h
  cases fails with
  | settings failed => exact bind_of_eq_error failed
  | mode read failed =>
    unfold render
    rw [bind_of_eq_ok read, bind_of_eq_error failed]
  | scene failed =>
    obtain ⟨settings, read⟩ := exists_of_ne_error fun error failed =>
      clear .settings (by decide) error (.settings failed)
    obtain ⟨timing, timed⟩ := exists_of_ne_error fun error failed =>
      clear .mode (by decide) error (.mode read failed)
    exact render_of_engine_error read timed (bind_of_eq_error failed)
  | engine read timed decoded failed =>
    apply render_of_engine_error read timed
    unfold Script.engine
    rw [bind_of_eq_ok decoded, bind_of_eq_error failed]
  | bindings read timed decoded built strict failed =>
    apply render_of_engine_error read timed
    unfold Script.engine
    rw [bind_of_eq_ok decoded, bind_of_eq_ok built, if_pos strict, bind_of_eq_error failed]
  | storyboard given failed =>
    obtain ⟨settings, timing, scene, engine, builds⟩ := exists_builds clear
    have failed : s.readStoryboard engine.algorithm = .error error :=
      readStoryboard_eq_error_iff.mpr (.storyboard given failed)
    unfold render
    rw [bind_of_eq_ok builds.read, bind_of_eq_ok builds.timed, bind_of_eq_ok builds.engine_eq,
      bind_of_eq_error failed]
  | scenario given failed =>
    obtain ⟨settings, timing, scene, engine, builds⟩ := exists_builds fun step before =>
      clear step (Nat.lt_trans before (by decide))
    obtain ⟨storyboard, read⟩ :=
      exists_readStoryboard (clear .storyboard (by decide)) engine.algorithm
    have failed : s.readScenario = .error error :=
      readScenario_eq_error_iff.mpr (.scenario given failed)
    unfold render
    rw [bind_of_eq_ok builds.read, bind_of_eq_ok builds.timed, bind_of_eq_ok builds.engine_eq,
      bind_of_eq_ok read, bind_of_eq_error failed]
  | run prepared failed =>
    rw [prepared.render_eq]
    exact bind_of_eq_error failed

theorem clears_of_render_eq_ok {r : Rendering} (h : s.render = .ok r) (step : Step) :
    s.Clears step := by
  obtain clear | ⟨_, _, first⟩ := s.exists_first
  · exact clear step
  · rw [first.render_eq] at h
    cases h

theorem Prepares.render_eq_ok (h : s.Prepares p) (played : p.play.1 = .ok ()) :
    s.render = .ok {
      tracker := p.play.2.1.tracker, context := p.play.2.2.context
      stage := p.play.2.2.stage } := by
  have rendered := h.render_eq
  dsimp only at rendered
  rw [bind_of_eq_ok played] at rendered
  exact rendered

theorem Prepares.clears (h : s.Prepares p) (played : p.play.1 = .ok ()) (step : Step) :
    s.Clears step :=
  clears_of_render_eq_ok (h.render_eq_ok played) step

theorem outcome_of_render_eq_error (h : s.render = .error error) (exports : Exports) :
    s.outcome exports = .ofError error := by
  unfold outcome
  rw [h]

/--
Whether two scripts are the same in everything that is looked at up to a step.
-/
structure Agrees (t s : Script) (step : Step) : Prop where
  settings : t.settings = s.settings
  mode : Step.mode.place ≤ step.place → t.mode = s.mode
  scene : Step.scene.place ≤ step.place → t.scene = s.scene
  storyboard : Step.storyboard.place ≤ step.place → t.storyboard = s.storyboard
  scenario : Step.scenario.place ≤ step.place → t.scenario = s.scenario

namespace Agrees

variable {last : Step}

theorem symm (h : t.Agrees s step) : s.Agrees t step where
  settings := h.settings.symm
  mode le := (h.mode le).symm
  scene le := (h.scene le).symm
  storyboard le := (h.storyboard le).symm
  scenario le := (h.scenario le).symm

theorem readSettings_eq (h : t.Agrees s step) : t.readSettings = s.readSettings := by
  unfold readSettings
  rw [h.settings]

theorem timing_eq (h : t.Agrees s step) (le : Step.mode.place ≤ step.place) (settings : Settings) :
    t.timing settings = s.timing settings := by
  unfold Script.timing
  rw [h.mode le]

theorem eq_of_run (h : t.Agrees s .run) : t = s := by
  cases s with
  | mk scene storyboard scenario settings mode =>
    cases t with
    | mk =>
      cases h.settings
      cases h.mode (by decide)
      cases h.scene (by decide)
      cases h.storyboard (by decide)
      cases h.scenario (by decide)
      rfl

theorem fails (h : t.Agrees s last) (le : step.place ≤ last.place) (failed : s.Fails step error) :
    t.Fails step error := by
  cases failed with
  | settings failed =>
    apply Fails.settings
    rw [h.readSettings_eq, failed]
  | mode read failed =>
    rw [← h.readSettings_eq] at read
    rw [← h.timing_eq le] at failed
    exact .mode read failed
  | scene failed =>
    rw [← h.scene le] at failed
    exact .scene failed
  | engine read timed decoded failed =>
    rw [← h.readSettings_eq] at read
    rw [← h.timing_eq (Nat.le_trans (by decide) le)] at timed
    rw [← h.scene (Nat.le_trans (by decide) le)] at decoded
    exact .engine read timed decoded failed
  | bindings read timed decoded built strict failed =>
    rw [← h.readSettings_eq] at read
    rw [← h.timing_eq (Nat.le_trans (by decide) le)] at timed
    rw [← h.scene (Nat.le_trans (by decide) le)] at decoded
    exact .bindings read timed decoded built strict failed
  | storyboard given failed =>
    rw [← h.storyboard le] at given
    exact .storyboard given failed
  | scenario given failed =>
    rw [← h.scenario le] at given
    exact .scenario given failed
  | run prepared failed =>
    have last_eq : last = .run := by
      cases last with
      | run => rfl
      | _ => exact absurd le (by decide)
    cases last_eq
    cases h.eq_of_run
    exact .run prepared failed

theorem failsFirst (h : t.Agrees s step) (first : s.FailsFirst step error) :
    t.FailsFirst step error := by
  refine ⟨h.fails (Nat.le_refl _) first.1, ?_⟩
  intro earlier before error failed
  exact first.2 earlier before error (h.symm.fails (Nat.le_of_lt before) failed)

end Agrees

end Script

namespace Outcome

/--
What the files of a disk hold after those of an outcome have been written to it.
-/
def written (o : Outcome) (disk : String → Option String) : String → Option String :=
  o.files.foldl (fun disk (path, text) other => if other = path then some text else disk other) disk

variable {disk : String → Option String}

theorem written_ofError (error : Error) : (ofError error).written disk = disk := rfl

theorem written_ofRendering {exports : Exports} {r : Rendering}
    (distinct : ∀ path, exports.csv = some path → exports.json ≠ some path) (path : String) :
    (ofRendering exports r).written disk path =
      if exports.csv = some path then some r.tracker.csv
      else if exports.json = some path then some r.tracker.json
      else disk path := by
  obtain ⟨csv, json⟩ := exports
  cases csv with
  | none =>
    cases json with
    | none => rfl
    | some other => simp [written, ofRendering, eq_comm]
  | some first =>
    cases json with
    | none => simp [written, ofRendering, eq_comm]
    | some other =>
      have ne : first ≠ other := fun same => distinct first rfl (congrArg some same.symm)
      by_cases here : path = first
      · simp [written, ofRendering, here, ne]
      · have other_ne : ¬first = path := fun same => here same.symm
        simp [written, ofRendering, here, other_ne, eq_comm]

end Outcome

namespace Script

/--
A rendering ends with what is wrong at the first step that fails, and then no file is written;
whatever is different in what only later steps look at, it ends the same. If no step fails, the
files that are asked for hold the record of a run of a new director, and no others change.
-/
theorem outcome_of_steps (s : Script) :
    ((∀ step, s.Clears step) ∨ ∃ step error, s.FailsFirst step error) ∧
    (∀ step error, s.FailsFirst step error → ∀ t : Script, t.Agrees s step → ∀ exports,
      t.outcome exports = .ofError error ∧ ∀ disk, (t.outcome exports).written disk = disk) ∧
    ((∀ step, s.Clears step) → (∃ p, s.Prepares p) ∧ ∀ p, s.Prepares p →
      p.play.1 = .ok () ∧ ∀ exports, (s.outcome exports).status = 0 ∧
        ((∀ path, exports.csv = some path → exports.json ≠ some path) →
          ∀ disk path, (s.outcome exports).written disk path =
            if exports.csv = some path then some p.play.2.1.tracker.csv
            else if exports.json = some path then some p.play.2.1.tracker.json
            else disk path)) := by
  refine ⟨s.exists_first, ?_, ?_⟩
  · intro step error first t agrees exports
    have same : t.outcome exports = .ofError error :=
      outcome_of_render_eq_error (agrees.failsFirst first).render_eq exports
    refine ⟨same, ?_⟩
    intro disk
    rw [same, Outcome.written_ofError]
  · intro clear
    refine ⟨exists_prepares fun step _ => clear step, ?_⟩
    intro p prepared
    obtain ⟨_, played⟩ := exists_of_ne_error fun error failed =>
      clear .run error (.run prepared failed)
    refine ⟨played, ?_⟩
    intro exports
    have same : s.outcome exports = .ofRendering exports
        { tracker := p.play.2.1.tracker, context := p.play.2.2.context,
          stage := p.play.2.2.stage } := by
      unfold outcome
      rw [prepared.render_eq_ok played]
    rw [same]
    exact ⟨rfl, fun distinct disk => Outcome.written_ofRendering distinct⟩

/--
A mode that is not known is complained about whatever else is asked for, even if there is no scene;
and of a scene alone, the storyboard for its algorithm is recorded.
-/
theorem outcome_of_steps_of_unknown_mode :
    let exports : Exports := { csv := some "rows", json := some "list" }
    let unknown : Error := .config (.unknownMode "slow" ["draft", "fast", "normal"])
    let actions := ["show_title", "setup_scene", "setup_widgets", "play_events", "outro"]
    (∀ (scene : File) (storyboard scenario : Option File) (disk : String → Option String),
      let hasty : Script := { scene, storyboard, scenario, mode := some "slow" }
      hasty.outcome exports = .ofError unknown ∧ (hasty.outcome exports).written disk = disk) ∧
    ∃ (text : String) (tracker : Tracker), tracker.records.map (·.action) = actions ∧
      ∀ disk, let left := (({ scene := some text } : Script).outcome exports).written disk
        left "rows" = some tracker.csv ∧ left "list" = some tracker.json ∧
        left "notes" = disk "notes" := by
  intro exports unknown actions
  constructor
  · intro scene storyboard scenario disk hasty
    let bare : Script := { scene := none, mode := some "slow" }
    have read : bare.readSettings = .ok {} := rfl
    have first : bare.FailsFirst .mode unknown := by
      refine ⟨.mode read rfl, ?_⟩
      intro earlier before error failed
      cases failed with
      | settings failed => cases failed
      | _ => exact absurd before (by decide)
    have agrees : hasty.Agrees bare .mode := by
      refine ⟨rfl, fun _ => rfl, ?_, ?_, ?_⟩
      all_goals exact fun le => absurd le (by decide)
    obtain ⟨same, written⟩ := bare.outcome_of_steps.2.1 .mode unknown first hasty agrees exports
    exact ⟨same, written disk⟩
  · let spec : SceneSpec := { name := "maze", algorithm := "bfs" }
    have finite : SceneSpec.schema.IsFinite spec := ⟨trivial, trivial, nofun, nofun, trivial⟩
    have within : SceneSpec.schema.EmbedsWithin Source.limit spec :=
      ⟨trivial, trivial, nofun, nofun, trivial⟩
    have same : SceneSpec.schema.ReadsBack spec := by
      have written : SceneSpec.schema.write spec = .object [(.text "name", .text "maze"),
          (.text "algorithm", .text "bfs"), (.text "widgets", .object [] true),
          (.text "event_bindings", .object [] true)] true := rfl
      rw [Schema.ReadsBack, written]
      simp
    obtain ⟨text, decoded⟩ : ∃ text, SceneSpec.schema.decode text = .ok spec := by
      refine ⟨SceneSpec.schema.encode spec, ?_⟩
      apply (Schema.decode_encode_eq_ok_iff SceneSpec.isLawful_schema (by decide) same .compact).mpr
      exact ⟨finite, within⟩
    let s : Script := { scene := some text }
    let engine : Engine StockWidget := {
      name := "maze", algorithm := "bfs", widgets := .empty, routing := .ofSpecs .empty
      tempo := { timing := {}, factor := 1.0 } }
    have read : s.scene.decode SceneSpec.schema = .ok spec := by
      change (SceneSpec.schema.decode text).mapError Error.document = _
      rw [decoded]
      rfl
    have builds : s.Builds {} {} spec engine := ⟨rfl, rfl, read, rfl, fun _ => rfl⟩
    let p : Setup := ⟨{}, {}, spec, engine, .fallback "bfs", .null⟩
    have prepared : s.Prepares p := by
      refine ⟨builds, ?_, fun _ => rfl, ?_, fun _ => rfl⟩
      · rintro _ ⟨⟩
      · rintro _ ⟨⟩
    have played : p.play.1 = .ok () := eq_ok_of_isOk (by decide +kernel)
    obtain ⟨_, left⟩ := (s.outcome_of_steps.2.2 (prepared.clears played)).2 p prepared
    refine ⟨text, p.play.2.1.tracker, by decide +kernel, ?_⟩
    intro disk
    have distinct : ∀ path, exports.csv = some path → exports.json ≠ some path := by
      rintro path ⟨⟩
      exact of_decide_eq_true rfl
    have written := (left exports).2 distinct disk
    exact ⟨written "rows", written "list", written "notes"⟩

end Script

end Stagecraft
