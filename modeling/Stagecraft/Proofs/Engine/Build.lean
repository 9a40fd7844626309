import Stagecraft.Engine
import Stagecraft.Table.Lemmas

/-!
This module contains what holds of engines that were built: they have the name, the tempo and the
routing that were declared, and under each name of the pool the widget that its declaration makes.
-/

namespace Stagecraft

namespace Engine

variable {ω : Type} {factory : Factory ω} {spec : SceneSpec} {timing : Timing} {engine : Engine ω}

theorem build_eq_of_ofTiming {tempo : Tempo} (h : Tempo.ofTiming timing = .ok tempo) :
    build factory spec timing =
      (spec.widgets.traverse fun name widget => factory.build name widget.kind widget.params).map
        fun widgets => {
          name := spec.name, algorithm := spec.algorithm, widgets,
          routing := .ofSpecs spec.eventBindings, tempo } := by
  unfold build
  rw [h]
  simp only [bind, Except.bind]
  split
  next made =>
    rw [made]
    rfl
  next made =>
    rw [made]
    rfl

theorem exists_of_build_eq_ok (h : build factory spec timing = .ok engine) :
    ∃ tempo widgets, Tempo.ofTiming timing = .ok tempo ∧
      (spec.widgets.traverse fun name widget =>
        factory.build name widget.kind widget.params) = .ok widgets ∧
      engine = {
        name := spec.name, algorithm := spec.algorithm, widgets,
        routing := .ofSpecs spec.eventBindings, tempo } := by
  obtain ⟨tempo, valid, h⟩ := exists_of_bind_eq_ok h
  obtain ⟨widgets, made, h⟩ := exists_of_bind_eq_ok h
  cases h
  exact ⟨tempo, widgets, valid, made, rfl⟩

theorem get?_widgets_build (h : build factory spec timing = .ok engine) (name : String) :
    engine.widgets.get? name =
      (spec.widgets.get? name).bind fun widget =>
        (factory.build name widget.kind widget.params).toOption := by
  obtain ⟨tempo, widgets, valid, made, rfl⟩ := exists_of_build_eq_ok h
  apply Entries.get?_traverse made

theorem widgetNames_build (h : build factory spec timing = .ok engine) :
    engine.widgetNames = spec.widgets.keys := by
  obtain ⟨tempo, widgets, valid, made, rfl⟩ := exists_of_build_eq_ok h
  exact Entries.keys_traverse made

theorem routing_build (h : build factory spec timing = .ok engine) :
    engine.routing = .ofSpecs spec.eventBindings := by
  obtain ⟨tempo, widgets, valid, made, rfl⟩ := exists_of_build_eq_ok h
  rfl

theorem ofTiming_tempo_build (h : build factory spec timing = .ok engine) :
    Tempo.ofTiming timing = .ok engine.tempo := by
  obtain ⟨tempo, widgets, valid, made, rfl⟩ := exists_of_build_eq_ok h
  exact valid

end Engine

end Stagecraft
