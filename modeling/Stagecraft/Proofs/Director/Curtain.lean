import Stagecraft.Proofs.Director.Transcript
import Stagecraft.Stage.Rehearsal

/-!
This module contains what stands on the stage in a run of the built-in actions, and what is left of
it at the end. The last action takes away the title, the scene and its widgets; captions stay.
-/

namespace Stagecraft

namespace Rehearsal

variable {object : String}

theorem mem_objects_add (r : Rehearsal) (added : String) :
    object ∈ (Stage.add r added).objects ↔ object ∈ r.objects ∨ object = added := by
  change object ∈ (if r.objects.contains added then r.objects else r.objects ++ [added]) ↔ _
  split
  next present =>
    have : added ∈ r.objects := by simpa using present
    constructor
    · exact Or.inl
    · intro h
      cases h with
      | inl mem => exact mem
      | inr same => rwa [same]
  · simp

theorem mem_objects_remove (r : Rehearsal) (removed : String) :
    object ∈ (Stage.remove r removed).objects ↔ object ∈ r.objects ∧ object ≠ removed := by
  change object ∈ r.objects.filter (· ≠ removed) ↔ _
  simp

theorem mem_objects_foldl_add (names : List String) (r : Rehearsal) :
    object ∈ ((names.map StageOp.add).foldl Stage.perform r).objects ↔
      object ∈ r.objects ∨ object ∈ names := by
  induction names generalizing r with
  | nil => simp
  | cons name others ih =>
    rw [List.map_cons, List.foldl_cons, ih, List.mem_cons, ← or_assoc]
    apply or_congr_left
    apply mem_objects_add

theorem mem_objects_foldl_remove (names : List String) (r : Rehearsal) :
    object ∈ ((names.map StageOp.remove).foldl Stage.perform r).objects ↔
      object ∈ r.objects ∧ object ∉ names := by
  induction names generalizing r with
  | nil => simp
  | cons name others ih =>
    rw [List.map_cons, List.foldl_cons, ih, List.mem_cons, not_or, ← and_assoc]
    apply and_congr_left'
    apply mem_objects_remove

theorem objects_foldl_play {ops : List StageOp} (h : ∀ op ∈ ops, op.isPlay = true)
    (r : Rehearsal) : (ops.foldl Stage.perform r).objects = r.objects := by
  induction ops generalizing r with
  | nil => rfl
  | cons op rest ih =>
    rw [List.foldl_cons, ih]
    · cases op with
      | play animations seconds => rfl
      | _ => simp [StageOp.isPlay] at h
    · intro other mem
      exact h other (List.mem_cons_of_mem op mem)

end Rehearsal

def Cue.caption? {ω : Type} : Cue ω → Option String
  | .showText object _ => some object
  | _ => none

def Beat.caption? (beat : Beat) : Option String :=
  if beat.action = Builtin.showText.name then
    some ((beat.args.text? "id").getD "caption")
  else
    none

namespace Cue

theorem stageNames_after {builtin : Builtin} {args : Args} {context : Context StockWidget}
    {cue : Cue StockWidget} (h : Ready args context builtin cue) :
    (cue.after context).stageNames = context.stageNames := by
  cases h with
  | playEvents engine known events limit =>
    unfold Context.stageNames
    rw [known]
    dsimp only [after, Engine.widgetNames, answers]
    rw [Trial.keys_answerAll]
  | _ => rfl

theorem isPlay_of_op? {a : Answer} {tempo : Tempo} {op : StageOp} (h : a.op? tempo = some op) :
    op.isPlay = true := by
  unfold Answer.op? at h
  split at h
  · cases h
    rfl
  · cases h

theorem mem_objects_ops {builtin : Builtin} {args : Args} {context : Context StockWidget}
    {cue : Cue StockWidget} {object : String} (h : Ready args context builtin cue)
    (other : object ∉ context.stageNames) (seconds : Float) (r : Rehearsal) :
    object ∈ ((cue.ops seconds).foldl Stage.perform r).objects ↔
      object ∈ r.objects ∨ cue.caption? = some object := by
  -- The title counts as part of the scene even where there is no engine.
  have title : object ≠ titleObject := by
    intro same
    apply other
    rw [same]
    apply List.mem_cons_self
  cases h with
  | showTitle text =>
    change object ∈ (Stage.add r titleObject).objects ↔ _
    rw [Rehearsal.mem_objects_add]
    simp [caption?, title]
  | showText text =>
    change object ∈ (Stage.add r _).objects ↔ _
    rw [Rehearsal.mem_objects_add]
    simp [caption?, eq_comm]
  | setupScene engine known =>
    have name : object ≠ engine.name := by
      intro same
      apply other
      simp [Context.stageNames, known, same]
    change object ∈ (Stage.add (Stage.remove r titleObject) engine.name).objects ↔ _
    rw [Rehearsal.mem_objects_add, Rehearsal.mem_objects_remove]
    simp [caption?, title, name]
  | setupWidgets engine known =>
    have names : object ∉ engine.widgetNames := by
      intro mem
      apply other
      simp [Context.stageNames, known, mem]
    generalize engine.widgetNames = widgets at names
    cases widgets with
    | nil => simp [ops, caption?]
    | cons widget others =>
      unfold ops
      rw [List.foldl_append]
      change object ∈ (((widget :: others).map StageOp.add).foldl Stage.perform r).objects ↔ _
      rw [Rehearsal.mem_objects_foldl_add]
      simp only [names, caption?, reduceCtorEq]
  | playEvents engine known events limit =>
    rw [Rehearsal.objects_foldl_play]
    · simp [caption?]
    · intro op mem
      obtain ⟨a, _, shown⟩ := List.mem_filterMap.mp mem
      exact isPlay_of_op? shown
  | highlight target effect =>
    change object ∈ r.objects ↔ _
    simp [caption?]
  | wait =>
    change object ∈ r.objects ↔ _
    simp [caption?]
  | outro =>
    unfold ops
    rw [List.foldl_cons, Rehearsal.mem_objects_foldl_remove]
    change object ∈ r.objects ∧ object ∉ context.stageNames ↔ _
    simp [caption?, other]

theorem not_mem_objects_ops_outro {targets : List String} {object : String}
    (target : object ∈ targets) (seconds : Float) (r : Rehearsal) :
    object ∉ (((outro targets).ops seconds).foldl Stage.perform r).objects := by
  unfold ops
  rw [List.foldl_cons, Rehearsal.mem_objects_foldl_remove]
  intro h
  exact h.2 target

theorem caption?_eq {builtin : Builtin} {beat : Beat} {context : Context StockWidget}
    {cue : Cue StockWidget} (h : Ready beat.args context builtin cue)
    (known : beat.action = builtin.name) : cue.caption? = beat.caption? := by
  unfold Beat.caption?
  rw [known]
  cases h with
  | _ => rfl

end Cue

namespace Transcript

def stage (t : Transcript) : Rehearsal := t.ops.foldl Stage.perform {}

theorem stage_perform (t : Transcript) (beat : Beat) (cue : Cue StockWidget) :
    (t.perform beat cue).stage =
      (cue.ops (beat.seconds t.context.tempo)).foldl Stage.perform t.stage := by
  unfold stage perform
  apply List.foldl_append

theorem stageNames_foldl_play (beats : List Beat) (t : Transcript) :
    (beats.foldl play t).context.stageNames = t.context.stageNames := by
  apply foldl_play_induction (motive := fun u => u.context.stageNames = _)
  · rfl
  · intro u error kept
    exact kept
  · intro u beat cue _ ready kept
    obtain ⟨builtin, _, _, ready⟩ := Beat.exists_ready_of_cue ready
    dsimp only [perform]
    rw [Cue.stageNames_after ready, kept]

theorem mem_objects_play {t : Transcript} {beat : Beat} {object : String}
    (done : (t.play beat).error = none) (other : object ∉ t.context.stageNames) :
    object ∈ (t.play beat).stage.objects ↔
      object ∈ t.stage.objects ∨ beat.caption? = some object := by
  obtain ⟨cue, ready, played⟩ := exists_cue_of_play done
  obtain ⟨builtin, known, _, ready⟩ := Beat.exists_ready_of_cue ready
  rw [played, stage_perform, Cue.mem_objects_ops ready other,
    Cue.caption?_eq ready (Builtin.ofName?_eq_some_iff.mp known)]

theorem mem_objects_foldl_play {beats : List Beat} {t : Transcript} {object : String}
    (done : (beats.foldl play t).error = none) (other : object ∉ t.context.stageNames) :
    object ∈ (beats.foldl play t).stage.objects ↔
      object ∈ t.stage.objects ∨ ∃ beat ∈ beats, beat.caption? = some object := by
  induction beats generalizing t with
  | nil => simp
  | cons beat rest ih =>
    rw [List.foldl_cons] at done ⊢
    have names := stageNames_foldl_play [beat] t
    rw [List.foldl_cons, List.foldl_nil] at names
    rw [ih done (by rwa [names]), mem_objects_play (error_eq_none_of_foldl_play done) other,
      or_assoc]
    simp only [List.mem_cons, exists_eq_or_imp]

theorem not_mem_objects_play_outro {t : Transcript} {beat : Beat} {object : String}
    (done : (t.play beat).error = none) (last : beat.action = Builtin.outro.name)
    (target : object ∈ t.context.stageNames) : object ∉ (t.play beat).stage.objects := by
  obtain ⟨cue, ready, played⟩ := exists_cue_of_play done
  obtain ⟨builtin, known, _, ready⟩ := Beat.exists_ready_of_cue ready
  rw [Builtin.ofName?_eq_some_iff.mpr last] at known
  cases known
  cases ready
  rw [played, stage_perform]
  exact Cue.not_mem_objects_ops_outro target _ _

theorem mem_objects_of_outro {beats : List Beat} {t : Transcript} {object : String}
    (fresh : t.ops = []) (last : beats.getLast?.map (·.action) = some Builtin.outro.name)
    (done : (beats.foldl play t).error = none) :
    object ∈ (beats.foldl play t).stage.objects ↔
      object ∉ t.context.stageNames ∧ ∃ beat ∈ beats, beat.caption? = some object := by
  by_cases target : object ∈ t.context.stageNames
  · obtain ⟨beat, final, action⟩ := Option.map_eq_some_iff.mp last
    obtain ⟨before, rfl⟩ := List.getLast?_eq_some_iff.mp final
    rw [List.foldl_append, List.foldl_cons, List.foldl_nil] at done ⊢
    have gone : object ∉ ((before.foldl play t).play beat).stage.objects := by
      apply not_mem_objects_play_outro done action
      rwa [stageNames_foldl_play]
    simp [gone, target]
  · have empty : t.stage.objects = [] := by
      unfold stage
      rw [fresh]
      rfl
    rw [mem_objects_foldl_play done target, empty]
    simp [target]

end Transcript

namespace Director

/--
A run of built-in actions that completes, and whose last beat takes everything off the stage, leaves
the captions there that are not called like the title, the scene or one of its widgets. The stage is
empty if there are none of these.
-/
theorem run_builtins_of_outro {storyboard : Storyboard} {context : Context StockWidget}
    (last : storyboard.beats.getLast?.map (·.action) = some Builtin.outro.name) :
    let outcome := ({ storyboard, registry := .builtins } : Director StockWidget Rehearsal).run
      { context, stage := {} }
    outcome.1 = .ok () →
    (∀ object, object ∈ outcome.2.2.stage.objects ↔
      object ∉ context.stageNames ∧
        ∃ beat ∈ storyboard.beats, beat.caption? = some object) ∧
    (outcome.2.2.stage.objects = [] ↔
      ∀ beat ∈ storyboard.beats, ∀ object, beat.caption? = some object →
        object ∈ context.stageNames) := by
  intro outcome done
  have ran := run_eq_transcript storyboard { context, stage := ({} : Rehearsal) }
  dsimp only at ran
  have completes : (storyboard.transcript context).error = none := by
    rw [← Transcript.result_eq_ok_iff, ← ran.1, done]
  have members (object : String) : object ∈ outcome.2.2.stage.objects ↔
      object ∉ context.stageNames ∧
        ∃ beat ∈ storyboard.beats, beat.caption? = some object := by
    rw [ran.2.2.2]
    exact Transcript.mem_objects_of_outro rfl last completes
  refine ⟨members, ?_⟩
  rw [List.eq_nil_iff_forall_not_mem]
  constructor
  · intro empty beat mem object caption
    apply Decidable.byContradiction
    intro other
    exact empty object ((members object).mpr ⟨other, beat, mem, caption⟩)
  · intro named object mem
    obtain ⟨other, beat, mem, caption⟩ := (members object).mp mem
    exact other (named beat mem object caption)

theorem run_builtins_of_outro_after_captions :
    let first : Beat := {
      action := "show_text", args := .ofList [("text", .text "a"), ("id", .text "title")] }
    let second : Beat := {
      action := "show_text", args := .ofList [("text", .text "b"), ("id", .text "note")] }
    let storyboard : Storyboard := {
      acts := [{ shots := [{ beats := [first, second, { action := "outro" }] }] }] }
    let outcome := ({ storyboard, registry := .builtins } : Director StockWidget Rehearsal).run
      { context := {}, stage := {} }
    storyboard.beats.getLast?.map (·.action) = some Builtin.outro.name ∧ outcome.1 = .ok () ∧
    "note" ∈ outcome.2.2.stage.objects ∧ "title" ∉ outcome.2.2.stage.objects := by
  intro first second storyboard outcome
  have last : storyboard.beats.getLast?.map (·.action) = some Builtin.outro.name := rfl
  have done : outcome.1 = .ok () := rfl
  obtain ⟨members, _⟩ := run_builtins_of_outro last done
  refine ⟨last, done, ?_, ?_⟩
  · rw [members]
    refine ⟨by decide, second, ?_, rfl⟩
    simp [storyboard, Storyboard.beats]
  · rw [members]
    intro h
    exact h.1 (by decide)

/--
The way off the stage does not clear it: a caption that was shown before is still there.
-/
theorem run_builtins_of_outro_ne_nil :
    let engine : Engine StockWidget := {
      name := "maze", algorithm := "bfs", widgets := .empty, routing := {}, tempo := .standard }
    let caption : Beat := { action := "show_text", args := .ofList [("text", .text "a")] }
    let storyboard : Storyboard := {
      acts := [{ shots := [{ beats := [caption, { action := "outro" }] }] }] }
    let outcome := ({ storyboard, registry := .builtins } : Director StockWidget Rehearsal).run
      { context := .ofEngine engine, stage := {} }
    storyboard.beats.getLast?.map (·.action) = some Builtin.outro.name ∧ outcome.1 = .ok () ∧
    outcome.2.2.stage.objects = ["caption"] := by
  intro engine caption storyboard outcome
  exact ⟨rfl, rfl, rfl⟩

end Director

end Stagecraft
