import Mathlib.Data.List.Forall2
import Stagecraft.Proofs.Playback.Account
import Stagecraft.Proofs.Playback.Answer
import Stagecraft.Proofs.Stage.Log

/-!
This module contains what a playback with stock widgets looks like on the stage: one animation for
each binding that is delivered, in the order of the deliveries, and nothing else.
-/

namespace Stagecraft

/--
The seconds that a binding asks for, if they make sense.
-/
inductive Binding.Asks : Binding → Float → Prop where
  | duration {widget method : String} {params : Table Value} {number : Number}
    (param : params.get? "duration" = some (.number number))
    (finite : number.toFloat.isFinite = true) (zero_le : 0 ≤ number.toFloat) :
    Asks (.method widget method params) number.toFloat

/--
How long a trial lasts that is delivered: as its binding asks, else as long as the tempo has it for
the kind of the event.
-/
inductive Trial.Lasts (tempo : Tempo) (t : Trial) : Float → Prop where
  | asked {seconds : Float} (h : t.binding.Asks seconds) : Lasts tempo t seconds
  | timed (h : ∀ seconds, ¬t.binding.Asks seconds) :
    Lasts tempo t (tempo.timing.base (tempo.bucket t.event.kind) * tempo.factor)

theorem Value.toFloat?_eq_some_iff {value : Value} {x : Float} :
    value.toFloat? = some x ↔ ∃ number, value = .number number ∧ number.toFloat = x := by
  cases value with
  | number number => simp [toFloat?]
  | _ => simp [toFloat?]

theorem Binding.duration?_eq_some_iff {binding : Binding} {seconds : Float} :
    binding.duration? = some seconds ↔ binding.Asks seconds := by
  constructor
  · intro h
    unfold duration? at h
    split at h
    · split at h
      next told =>
        obtain ⟨value, param, number⟩ := Option.bind_eq_some_iff.mp told
        obtain ⟨number, rfl, rfl⟩ := Value.toFloat?_eq_some_iff.mp number
        split at h
        next valid =>
          cases h
          exact .duration param valid.1 valid.2
        · cases h
      · cases h
    · cases h
  · intro h
    cases h with
    | duration param finite zero_le => simp [duration?, param, Value.toFloat?, finite, zero_le]

theorem Answer.lasts (a : Answer) (tempo : Tempo) : a.trial.Lasts tempo (a.seconds tempo) := by
  unfold seconds
  cases told : a.trial.binding.duration? with
  | some seconds => exact .asked (Binding.duration?_eq_some_iff.mp told)
  | none =>
    apply Trial.Lasts.timed
    intro seconds asked
    rw [Binding.duration?_eq_some_iff.mpr asked] at told
    cases told

/--
An animation on the stage, and its seconds.
-/
def Answer.shown? (tempo : Tempo) (a : Answer) : Option (Animation × Float) :=
  match a.result with
  | .ok animation => some (animation, a.seconds tempo)
  | .error _ => none

namespace Rehearsal

/--
Plays some animations, one after the other.
-/
def plays (shown : List (Animation × Float)) : List StageOp :=
  shown.map fun (animation, seconds) => .play [animation] seconds

theorem foldl_plays (shown : List (Animation × Float)) (r : Rehearsal) :
    (plays shown).foldl Stage.perform r =
      { ops := r.ops ++ plays shown, objects := r.objects
        clock := (shown.map (·.2)).foldl Clock.advance r.clock } := by
  induction shown generalizing r with
  | nil => simp [plays]
  | cons first rest ih =>
    unfold plays at ih ⊢
    rw [List.map_cons, List.foldl_cons, ih, List.map_cons, List.foldl_cons]
    apply congrArg (fun ops => Rehearsal.mk ops r.objects _)
    apply List.append_assoc

end Rehearsal

namespace Answer

theorem filterMap_op? (tempo : Tempo) (answers : List Answer) :
    answers.filterMap (·.op? tempo) = Rehearsal.plays (answers.filterMap (·.shown? tempo)) := by
  unfold Rehearsal.plays
  rw [List.map_filterMap]
  congr 1
  funext a
  unfold op? shown?
  cases a.result with
  | ok => rfl
  | error => rfl

/--
What is shown is what is delivered, in the same order.
-/
theorem forall₂_shown? (tempo : Tempo) (answers : List Answer) :
    List.Forall₂ (fun t shown => t.Lasts tempo shown.2)
      (((answers.map (·.attempt)).filter (·.isDelivered)).map (·.trial))
      (answers.filterMap (·.shown? tempo)) := by
  induction answers with
  | nil => exact .nil
  | cons a rest ih =>
    have lasts := a.lasts tempo
    obtain ⟨t, result⟩ := a
    cases result with
    | ok animation => exact .cons lasts ih
    | error reason => exact ih

end Answer

/--
A stock widget that refuses an event has no effect; one that accepts it shows one animation, within
the seconds it is given. So a playback shows what it delivers: one animation for each delivery, in
their order, as long as the binding asks for or as the tempo has it for the event. The clock goes on
by these seconds, and no object comes or goes.
-/
theorem Playback.take_shows {ι : Type} [EventSource ι] (p : Playback StockWidget Rehearsal ι)
    (count : Nat) :
    (∀ (widget : StockWidget) method event seconds (stage : Rehearsal),
      let reaction := Widget.update widget method event seconds stage
      (∃ error, reaction = { result := .error error, widget, stage }) ∨
        ∃ after animation, reaction =
          { result := .ok (), widget := after
            stage := { stage with
              ops := stage.ops ++ [.play [animation] seconds]
              clock := stage.clock.advance seconds } }) ∧
    let first := p.router
    let last := (p.take count).2.router
    let tempo := first.engine.tempo
    let trials := first.engine.routing.trials (p.take count).1
    let attempts := (Trial.runAll tempo first.engine.widgetNames trials first.ensemble).1
    let delivered := (attempts.filter (·.isDelivered)).map (·.trial)
    ∃ shown : List (Animation × Float),
      List.Forall₂ (fun t (_, seconds) => t.Lasts tempo seconds) delivered shown ∧
      last.delivered = first.delivered + shown.length ∧
      last.failures = first.failures ++ attempts.filterMap (·.failure?) ∧
      last.stage =
        { ops := first.stage.ops ++ shown.map fun (animation, seconds) => .play [animation] seconds
          objects := first.stage.objects
          clock := (shown.map (·.2)).foldl Clock.advance first.stage.clock } ∧
      last.stage.clock.seconds =
        ((shown.map (·.2)).filter fun seconds => seconds.isFinite ∧ 0 < seconds).foldl (· + ·)
          first.stage.clock.seconds := by
  constructor
  · intro widget method event seconds stage reaction
    cases response : widget.respond method event with
    | error cause =>
      exact .inl ⟨.widget cause, StockWidget.update_of_error response seconds stage⟩
    | ok outcome =>
      obtain ⟨after, animation⟩ := outcome
      exact .inr ⟨after, animation, StockWidget.update_of_ok response seconds stage⟩
  · intro first last tempo trials attempts delivered
    let answers := (Trial.answerAll trials first.engine.widgets).1
    let shown := answers.filterMap (·.shown? tempo)
    have tried : attempts = answers.map (·.attempt) :=
      congrArg (·.1) (Trial.runAll_eq_answerAll tempo trials first.ensemble)
    have forall₂ : List.Forall₂ (fun t (_, seconds) => t.Lasts tempo seconds) delivered shown := by
      dsimp only [delivered]
      rw [tried]
      apply Answer.forall₂_shown?
    have dispatched : last = (p.take count).1.foldl Router.dispatch first := by
      dsimp only [last]
      rw [take_eq]
    have played := dispatched.trans (Router.foldl_dispatch_eq_answers (p.take count).1 first)
    have stage : last.stage =
        { ops := first.stage.ops ++ Rehearsal.plays shown, objects := first.stage.objects
          clock := (shown.map (·.2)).foldl Clock.advance first.stage.clock } := by
      rw [played]
      dsimp only
      rw [Answer.filterMap_op?, Rehearsal.foldl_plays]
    refine ⟨shown, forall₂, ?_, ?_, stage, ?_⟩
    · rw [played, ← forall₂.length_eq, List.length_map, ← List.countP_eq_length_filter, tried]
    · rw [played, tried]
    · rw [stage]
      apply Clock.seconds_foldl_advance

end Stagecraft
