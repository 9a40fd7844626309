import Stagecraft.Proofs.Director.BuiltinBeat
import Stagecraft.Proofs.Document.Decoding
import Stagecraft.Stage.Rehearsal

/-!
This module contains what can be told about a run of the built-in actions before it starts. Whether
a beat can be played follows from what it says and from the venue of the run: neither the beats
before it, nor the widgets, nor the stage have a say in it.
-/

namespace Stagecraft

/--
What the built-in actions find in a run and do not change: whether there is an engine, the scripted
adapter, if there is one, with the events it is given, and the scenario.
-/
structure Venue where
  hasEngine : Bool
  script : Option (Option (List Event))
  scenario : Value

namespace Venue

variable {ω : Type}

structure Fits (venue : Venue) (context : Context ω) : Prop where
  engine : context.engine.isSome = venue.hasEngine
  adapter : context.adapter = venue.script.map fun events => .scripted events
  scenario : context.scenario = venue.scenario

def engineFlaw? (venue : Venue) : Option Error :=
  if venue.hasEngine then none else some (.action .noEngine)

def eventsFlaw? (venue : Venue) (args : Args) : Option Error :=
  match venue.script with
  | none => some (.action .noAdapter)
  | some (some _) => none
  | some none => Adapter.listFlaw? ((args.get? "scenario").getD venue.scenario)

end Venue

def Builtin.textFlaw? (builtin : Builtin) (args : Args) (name : String) : Option Error :=
  if (args.text? name).isSome then
    none
  else
    some (.action (.missingArgument builtin.name name))

def Builtin.flaw? (venue : Venue) (builtin : Builtin) (args : Args) : Option Error :=
  match builtin with
  | .showText => builtin.textFlaw? args "text"
  | .highlight => builtin.textFlaw? args "target"
  | .setupScene | .setupWidgets => venue.engineFlaw?
  | .playEvents => venue.engineFlaw? <|> venue.eventsFlaw? args
  | .showTitle | .wait | .outro => none

/--
The first thing that keeps a beat from being played: no action has its name, its duration makes no
sense, or its action cannot be performed.
-/
def Beat.flaw? (venue : Venue) (beat : Beat) : Option Error :=
  match Builtin.ofName? beat.action with
  | none =>
    some (.orchestration (.unknownAction beat.action (.notRegistered beat.action Builtin.names)))
  | some builtin =>
    match beat.invalidDuration? with
    | some seconds => some (.config (.invalidDuration beat.action seconds))
    | none => builtin.flaw? venue beat.args

namespace Cue

variable {ω : Type} {venue : Venue} {context : Context ω}

theorem error?_requireText (builtin : Builtin) (args : Args) (name : String) :
    error? (builtin.requireText args name) = builtin.textFlaw? args name := by
  unfold Builtin.requireText Builtin.textFlaw?
  cases args.text? name with
  | none => rfl
  | some => rfl

theorem error?_requireEngine (h : venue.Fits context) :
    error? context.requireEngine = venue.engineFlaw? := by
  unfold Venue.engineFlaw? Context.requireEngine
  rw [← h.engine]
  cases context.engine with
  | none => rfl
  | some => rfl

theorem error?_ofArgs (h : venue.Fits context) (builtin : Builtin) (args : Args) :
    error? (ofArgs builtin args context) = builtin.flaw? venue args := by
  cases builtin with
  | showText | highlight =>
    rw [Builtin.flaw?, ← error?_requireText]
    apply error?_bind_pure
  | setupScene | setupWidgets =>
    rw [Builtin.flaw?, ← error?_requireEngine h]
    apply error?_bind_pure
  | playEvents =>
    rw [Builtin.flaw?, ← error?_requireEngine h]
    apply error?_bind
    intro engine
    unfold Venue.eventsFlaw? Context.requireAdapter
    rw [h.adapter, h.scenario]
    cases venue.script with
    | none => rfl
    | some events =>
      cases events with
      | some => rfl
      | none =>
        dsimp only
        rw [← Adapter.error?_listed]
        apply error?_bind_pure
  | _ => rfl

end Cue

theorem Beat.error?_cue {ω : Type} {venue : Venue} {context : Context ω} (h : venue.Fits context)
    (beat : Beat) : error? (beat.cue context) = beat.flaw? venue := by
  unfold Beat.cue Beat.flaw?
  cases Builtin.ofName? beat.action with
  | none => rfl
  | some builtin =>
    cases beat.invalidDuration? with
    | some seconds => rfl
    | none => exact Cue.error?_ofArgs h builtin beat.args

variable {ω σ : Type} [Widget ω] [Stage σ] {venue : Venue}

theorem Cue.fits_perform {builtin : Builtin} {args : Args} {cue : Cue ω} {p : Performance ω σ}
    (h : venue.Fits p.context) (ready : Ready args p.context builtin cue)
    (seconds : Float) : venue.Fits (cue.perform seconds p).context := by
  have engine := isSome_engine_perform ready seconds
  obtain ⟨_, _, _, _, same⟩ := exists_context_perform cue seconds p
  rw [same] at engine ⊢
  exact ⟨engine.trans h.engine, h.adapter, h.scenario⟩

namespace Progress

theorem play_builtins_of_flaw {beat : Beat} {s : Progress ω σ} {error : Error}
    (going : s.error = none) (h : venue.Fits s.performance.context)
    (flaw : beat.flaw? venue = some error) :
    s.play .builtins beat = { s with error := some error } := by
  rw [← Beat.error?_cue h, error?_eq_some_iff] at flaw
  apply play_of_error going
  rw [Beat.play_builtins_eq, flaw]

theorem exists_play_builtins {beat : Beat} {s : Progress ω σ} (going : s.error = none)
    (h : venue.Fits s.performance.context) (flawless : beat.flaw? venue = none) :
    ∃ performance row, s.play .builtins beat = { performance, rows := s.rows ++ [row] } ∧
      row.action = beat.action ∧ venue.Fits performance.context := by
  rw [← Beat.error?_cue h, error?_eq_none_iff] at flawless
  obtain ⟨cue, ready⟩ := flawless
  have played := Beat.play_builtins_eq beat s.performance
  rw [ready] at played
  obtain ⟨builtin, _, _, ready⟩ := Beat.exists_ready_of_cue ready
  exact ⟨_, _, play_of_ok going played, rfl, Cue.fits_perform h ready _⟩

theorem foldl_play_builtins (beats : List Beat) (s : Progress ω σ) (going : s.error = none)
    (h : venue.Fits s.performance.context) :
    let progress := beats.foldl (play .builtins) s
    progress.error = beats.findSome? (Beat.flaw? venue) ∧
    progress.rows.map (·.action) = s.rows.map (·.action) ++
      (beats.takeWhile fun beat => (beat.flaw? venue).isNone).map (·.action) := by
  induction beats generalizing s with
  | nil => exact ⟨going, by simp⟩
  | cons beat rest ih =>
    rw [List.foldl_cons]
    cases flaw : beat.flaw? venue with
    | some error =>
      rw [play_builtins_of_flaw going h flaw, foldl_play_of_error .builtins rest _ error rfl]
      simp [flaw]
    | none =>
      -- The venue is the invariant: the rest of the beats is played at the same one.
      obtain ⟨performance, row, played, action, fits⟩ := exists_play_builtins going h flaw
      rw [played]
      obtain ⟨error, rows⟩ := ih { performance, rows := s.rows ++ [row] } rfl fits
      refine ⟨?_, ?_⟩
      · rw [error]
        simp [flaw]
      · rw [rows]
        simp [flaw, action]

end Progress

namespace Director

theorem run_builtins_eq (storyboard : Storyboard) {p : Performance ω σ}
    (h : venue.Fits p.context) :
    let outcome := ({ storyboard, registry := .builtins } : Director ω σ).run p
    let flaw := storyboard.beats.findSome? (Beat.flaw? venue)
    outcome.1 = flaw.elim (.ok ()) .error ∧
    outcome.2.1.state = (if flaw.isNone then .completed else .failed) ∧
    outcome.2.1.tracker.records.map (·.action) =
      (storyboard.beats.takeWhile fun beat => (beat.flaw? venue).isNone).map (·.action) := by
  intro outcome flaw
  have ran : outcome = _ := run_eq_progress .builtins storyboard p
  obtain ⟨error, rows⟩ :=
    Progress.foldl_play_builtins storyboard.beats ({ performance := p } : Progress ω σ) rfl h
  rw [ran]
  refine ⟨?_, ?_, ?_⟩
  · dsimp only
    rw [Progress.result_eq_elim, error]
  · dsimp only
    rw [Progress.state, error]
  · dsimp only
    rw [rows]
    rfl

/--
A run of built-in actions is decided before it starts: it completes if no beat has a flaw, and else
it fails at the first beat that has one, with what is wrong there.
-/
theorem run_builtins_iff (storyboard : Storyboard) (venue : Venue) (p : Performance ω σ)
    (h : venue.Fits p.context) :
    let director : Director ω σ := { storyboard, registry := .builtins }
    let outcome := director.run p
    (outcome.1 = .ok () ↔ ∀ beat ∈ storyboard.beats, beat.flaw? venue = none) ∧
    (outcome.2.1.state = .completed ↔ ∀ beat ∈ storyboard.beats, beat.flaw? venue = none) ∧
    (∀ before beat after error, storyboard.beats = before ++ beat :: after →
      (∀ other ∈ before, other.flaw? venue = none) → beat.flaw? venue = some error →
        outcome.1 = .error error ∧ outcome.2.1.state = .failed ∧
        outcome.2.1.tracker.records.map (·.action) = before.map (·.action)) ∧
    ∀ q : Performance ω σ, venue.Fits q.context →
      (director.run q).1 = outcome.1 ∧ (director.run q).2.1.state = outcome.2.1.state := by
  intro director outcome
  obtain ⟨result, state, rows⟩ := run_builtins_eq storyboard h
  change outcome.1 = _ at result
  change outcome.2.1.state = _ at state
  change outcome.2.1.tracker.records.map (·.action) = _ at rows
  refine ⟨?_, ?_, ?_, ?_⟩
  · rw [result, ← List.findSome?_eq_none_iff]
    cases storyboard.beats.findSome? (Beat.flaw? venue) with
    | none => simp
    | some error => simp
  · rw [state, ← List.findSome?_eq_none_iff]
    cases storyboard.beats.findSome? (Beat.flaw? venue) with
    | none => simp
    | some error => simp
  · intro before beat after error beats flawless flaw
    have first : storyboard.beats.findSome? (Beat.flaw? venue) = some error := by
      rw [beats, List.findSome?_append, List.findSome?_eq_none_iff.mpr flawless,
        List.findSome?_cons, flaw]
      rfl
    have played : storyboard.beats.takeWhile (fun beat => (beat.flaw? venue).isNone) = before := by
      rw [beats, List.takeWhile_append_of_pos]
      · simp [flaw]
      · intro other mem
        rw [flawless other mem]
        rfl
    rw [result, state, rows, first, played]
    simp
  · intro q fits
    obtain ⟨other, last, _⟩ := run_builtins_eq storyboard fits
    rw [result, state]
    exact ⟨other, last⟩

/--
An item that is no event, after one that is, keeps the events of the scenario from being played.
-/
theorem run_builtins_of_listed_null :
    let step : Value := .ofMembers [("type", .text "visit")]
    let scenario : Value := .ofMembers [("events", .array [step, .null])]
    let venue : Venue := { hasEngine := true, script := some none, scenario }
    let engine : Engine StockWidget := {
      name := "maze", algorithm := "bfs", widgets := .empty, routing := {}, tempo := .standard }
    let p : Performance StockWidget Rehearsal := {
      context := { engine := some engine, adapter := some .scripted, scenario }, stage := {} }
    let setup : Beat := { action := "setup_scene" }
    let events : Beat := { action := "play_events" }
    let storyboard : Storyboard := {
      acts := [{ shots := [{ beats := [setup, events] }, { beats := [setup] }] }] }
    let outcome := ({ storyboard, registry := .builtins } : Director StockWidget Rehearsal).run p
    venue.Fits p.context ∧
    outcome.1 = .error (.document (.mismatch (.wrongType .null "struct VizEvent"))) ∧
    outcome.2.1.tracker.records.map (·.action) = ["setup_scene"] := by
  intro step scenario venue engine p setup events storyboard outcome
  have fits : venue.Fits p.context := ⟨rfl, rfl, rfl⟩
  have flawless : ∀ other ∈ [setup], other.flaw? venue = none := by
    intro other mem
    rw [List.mem_singleton.mp mem]
    rfl
  have flaw : events.flaw? venue =
      some (.document (.mismatch (.wrongType .null "struct VizEvent"))) := rfl
  obtain ⟨result, _, rows⟩ := (run_builtins_iff storyboard venue p fits).2.2.1 [setup] events
    [setup] _ rfl flawless flaw
  exact ⟨fits, result, rows⟩

end Director

end Stagecraft
