import Stagecraft.Action.Context

/-!
This module contains what each step of a handler does when it is taken.
-/

namespace Stagecraft

namespace Handler

variable {state α β : Type} {s : state}

@[simp]
theorem on_get : (get : Handler state state).on s = (.ok s, s) := rfl

@[simp]
theorem on_liftM (result : Except Error α) :
    (liftM result : Handler state α).on s = (result, s) := by
  cases result with
  | ok => rfl
  | error => rfl

@[simp]
theorem on_bind (first : Handler state α) (next : α → Handler state β) :
    (first >>= next).on s =
      match first.on s with
      | (.ok a, s) => (next a).on s
      | (.error cause, s) => (.error cause, s) := by
  unfold on
  simp only [ExceptT.run_bind, StateT.run_bind]
  change (match (StateT.run first.run s) with | (a, s) => _) = _
  obtain ⟨result, s⟩ := StateT.run first.run s
  cases result with
  | ok => rfl
  | error => rfl

@[simp]
theorem on_map (f : α → β) (handler : Handler state α) :
    (f <$> handler).on s = ((handler.on s).1.map f, (handler.on s).2) := by
  rw [map_eq_pure_bind, on_bind]
  obtain ⟨result, s⟩ := handler.on s
  cases result with
  | ok => rfl
  | error => rfl

variable {ω σ : Type} {w : ω} {stage : σ}

@[simp]
theorem on_widget : (widget : Handler (ω × σ) ω).on (w, stage) = (.ok w, w, stage) := rfl

@[simp]
theorem on_setWidget (w' : ω) :
    (setWidget w' : Handler (ω × σ) Unit).on (w, stage) = (.ok (), w', stage) := rfl

@[simp]
theorem on_refuse (cause : WidgetError) :
    (refuse cause : Handler (ω × σ) α).on (w, stage) = (.error (.widget cause), w, stage) := rfl

@[simp]
theorem on_play [Stage σ] (animation : Animation) (runTime : Float) :
    (play animation runTime : Handler (ω × σ) Unit).on (w, stage) =
      (.ok (), w, Stage.play stage [animation] runTime) := rfl

variable {p : Performance ω σ}

@[simp]
theorem on_context : (context : Handler (Performance ω σ) (Context ω)).on p = (.ok p.context, p) :=
  rfl

@[simp]
theorem on_onStage (f : σ → σ) :
    (onStage f : Handler (Performance ω σ) Unit).on p = (.ok (), { p with stage := f p.stage }) :=
  rfl

end Handler

end Stagecraft
