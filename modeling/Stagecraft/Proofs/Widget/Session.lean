import Stagecraft.Proofs.Widget.Response

/-!
This module contains what becomes of a single widget that is updated again and again, and which of
the updates it accepts. Widgets that decide before they act are left alone by the updates that they
reject, and what they accept depends on nothing but the updates before.
-/

namespace Stagecraft

structure Update where
  method : String
  event : Event
  seconds : Float

/--
A widget, the stage that it acts on, and the updates that were tried so far, each with what came of
it.
-/
structure Session (ω σ : Type) where
  widget : ω
  stage : σ
  history : List (Update × Except Error Unit) := []

/--
Widgets that decide what becomes of them before anything happens.
-/
class Responsive (ω : Type) [Widget ω] where
  respond : ω → String → Event → Except WidgetError (ω × Animation)
  update_eq {σ : Type} [Stage σ] (widget : ω) (method : String) (event : Event) (seconds : Float)
    (stage : σ) :
    Widget.update widget method event seconds stage =
      .ofResponse widget stage seconds (respond widget method event)

instance : Responsive Grid where
  respond := Grid.respond
  update_eq _ _ _ _ _ := Grid.update_eq

instance : Responsive Queue where
  respond := Queue.respond
  update_eq _ _ _ _ _ := Queue.update_eq

instance : Responsive Stack where
  respond := Stack.respond
  update_eq _ _ _ _ _ := Stack.update_eq

def Update.Turns {ω : Type} [Widget ω] [Responsive ω] (u : Update) (widget after : ω) : Prop :=
  ∃ animation, Responsive.respond widget u.method u.event = .ok (after, animation)

namespace Session

variable {ω σ : Type} [Widget ω] [Stage σ]

def react (s : Session ω σ) (u : Update) : Reaction ω σ :=
  Widget.update s.widget u.method u.event u.seconds s.stage

def update (s : Session ω σ) (u : Update) : Session ω σ :=
  let reaction := s.react u
  { widget := reaction.widget, stage := reaction.stage
    history := s.history ++ [(u, reaction.result)] }

def updateAll (s : Session ω σ) (updates : List Update) : Session ω σ := updates.foldl update s

/--
The updates that were accepted, in order.
-/
def accepted (s : Session ω σ) : List Update := (s.history.filter (·.2.isOk)).map (·.1)

theorem updateAll_append (s : Session ω σ) (first others : List Update) :
    s.updateAll (first ++ others) = (s.updateAll first).updateAll others := by
  apply List.foldl_append

variable [Responsive ω]

theorem react_cases (s : Session ω σ) (u : Update) :
    (u.Turns s.widget (s.react u).widget ∧ (s.react u).result = .ok ()) ∨
      ((∀ after, ¬u.Turns s.widget after) ∧
        ∃ error, s.react u = { result := .error error, widget := s.widget, stage := s.stage }) := by
  unfold react Update.Turns
  rw [Responsive.update_eq]
  cases Responsive.respond s.widget u.method u.event with
  | ok response => exact .inl ⟨⟨response.2, rfl⟩, rfl⟩
  | error cause =>
    right
    constructor
    · simp
    · exact ⟨.widget cause, rfl⟩

theorem react_of_turns {s : Session ω σ} {u : Update} {after : ω} (h : u.Turns s.widget after) :
    (s.react u).widget = after ∧ (s.react u).result = .ok () := by
  obtain ⟨animation, h⟩ := h
  unfold react
  rw [Responsive.update_eq, h]
  exact ⟨rfl, rfl⟩

theorem result_react_eq_ok_iff (s : Session ω σ) (u : Update) :
    (s.react u).result = .ok () ↔ ∃ after, u.Turns s.widget after := by
  obtain ⟨turns, result⟩ | ⟨refuses, error, reaction⟩ := s.react_cases u
  · simp only [result, true_iff]
    exact ⟨_, turns⟩
  · simp [reaction, refuses]

theorem react_of_result_ne_ok {s : Session ω σ} {u : Update} (h : (s.react u).result ≠ .ok ()) :
    (s.react u).widget = s.widget ∧ (s.react u).stage = s.stage := by
  obtain ⟨_, result⟩ | ⟨_, error, reaction⟩ := s.react_cases u
  · exact absurd result h
  · simp [reaction]

theorem update_cases (s : Session ω σ) (u : Update) :
    (u.Turns s.widget (s.update u).widget ∧ (s.update u).accepted = s.accepted ++ [u]) ∨
      ((∀ after, ¬u.Turns s.widget after) ∧ (s.update u).widget = s.widget ∧
        (s.update u).accepted = s.accepted) := by
  unfold update accepted
  obtain ⟨turns, result⟩ | ⟨refuses, error, reaction⟩ := s.react_cases u
  · left
    refine ⟨turns, ?_⟩
    simp [result, Except.isOk, Except.toBool]
  · right
    refine ⟨refuses, ?_⟩
    simp [reaction, Except.isOk, Except.toBool]

/--
What holds of a widget and the updates that it accepted goes on to hold if each update that is
accepted keeps it.
-/
theorem updateAll_induction {motive : ω → List Update → Prop} {s : Session ω σ}
    (start : motive s.widget s.accepted)
    (step : ∀ widget accepted (u : Update) after, u.Turns widget after → motive widget accepted →
      motive after (accepted ++ [u])) (updates : List Update) :
    motive (s.updateAll updates).widget (s.updateAll updates).accepted := by
  induction updates generalizing s with
  | nil => exact start
  | cons u others ih =>
    apply ih (s := s.update u)
    obtain ⟨turns, accepted⟩ | ⟨_, widget, accepted⟩ := s.update_cases u
    · rw [accepted]
      apply step _ _ _ _ turns start
    · rw [widget, accepted]
      exact start

theorem react_congr {first second : Session ω σ} (h : first.widget = second.widget)
    (u : Update) :
    (first.react u).widget = (second.react u).widget ∧
      (first.react u).result = (second.react u).result := by
  unfold react
  rw [Responsive.update_eq, Responsive.update_eq, h]
  cases Responsive.respond second.widget u.method u.event with
  | ok => simp [Reaction.ofResponse]
  | error => simp [Reaction.ofResponse]

/--
What comes of updates depends on the widget, and neither on the stage nor on what was tried before.
-/
theorem updateAll_congr {first second : Session ω σ} (h : first.widget = second.widget)
    (updates : List Update) :
    (first.updateAll updates).widget = (second.updateAll updates).widget ∧
      ∃ outcomes, outcomes.map (·.1) = updates ∧
        (first.updateAll updates).history = first.history ++ outcomes ∧
        (second.updateAll updates).history = second.history ++ outcomes := by
  induction updates generalizing first second with
  | nil =>
    refine ⟨h, [], rfl, ?_⟩
    simp [updateAll]
  | cons u others ih =>
    obtain ⟨widget, result⟩ := react_congr h u
    have widget : (first.update u).widget = (second.update u).widget := widget
    obtain ⟨same, outcomes, tried, left, right⟩ := ih widget
    refine ⟨same, (u, (second.react u).result) :: outcomes, ?_, left.trans ?_, right.trans ?_⟩
    · simp [tried]
    · simp [update, result]
    · simp [update]

/--
Updates that leave the widget as it was can be put in, and whatever is tried after them comes out as
it did without them.
-/
theorem updateAll_insert {s : Session ω σ} {earlier inserted : List Update}
    (h : ((s.updateAll earlier).updateAll inserted).widget = (s.updateAll earlier).widget)
    (later : List Update) :
    (s.updateAll (earlier ++ inserted ++ later)).widget =
      (s.updateAll (earlier ++ later)).widget ∧
    ∃ before between after, before.map (·.1) = earlier ∧ between.map (·.1) = inserted ∧
      after.map (·.1) = later ∧
      (s.updateAll (earlier ++ later)).history = s.history ++ before ++ after ∧
      (s.updateAll (earlier ++ inserted ++ later)).history =
        s.history ++ before ++ between ++ after := by
  obtain ⟨_, before, tried, reached, _⟩ := updateAll_congr (Eq.refl s.widget) earlier
  obtain ⟨_, between, tried', passed, _⟩ :=
    updateAll_congr (Eq.refl (s.updateAll earlier).widget) inserted
  obtain ⟨same, after, tried'', long, short⟩ := updateAll_congr h later
  rw [updateAll_append, updateAll_append, updateAll_append]
  refine ⟨same, before, between, after, tried, tried', tried'', ?_, ?_⟩
  · rw [short, reached]
  · rw [long, passed, reached]

end Session

end Stagecraft
