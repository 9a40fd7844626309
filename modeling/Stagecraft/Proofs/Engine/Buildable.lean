import Stagecraft.Proofs.Engine.Build
import Stagecraft.Proofs.Routing.Target
import Stagecraft.Proofs.Tempo.Validation
import Stagecraft.Proofs.Text.Bytes
import Stagecraft.Proofs.Widget.Making

/-!
This module contains which scenes can be made live with the stock widgets, what is made of them, and
what is wrong with the others.
-/

namespace Stagecraft

namespace Engine

variable {spec : SceneSpec} {timing : Timing} {engine : Engine StockWidget} {error : Error}

theorem exists_build_eq_ok_iff {ω : Type} {factory : Factory ω} :
    (∃ engine, build factory spec timing = .ok engine) ↔
      timing.validate = .ok () ∧ ∀ name widget, spec.widgets.get? name = some widget →
        ∃ made, factory.build name widget.kind widget.params = .ok made := by
  rw [← Tempo.exists_ofTiming_iff]
  simp only [← Entries.mem_toList_iff]
  rw [← Entries.exists_traverse_eq_ok_iff]
  constructor
  · rintro ⟨engine, built⟩
    obtain ⟨tempo, widgets, valid, made, _⟩ := exists_of_build_eq_ok built
    exact ⟨⟨tempo, valid⟩, widgets, made⟩
  · rintro ⟨⟨tempo, valid⟩, widgets, made⟩
    rw [build_eq_of_ofTiming valid, made]
    exact ⟨_, rfl⟩

theorem build_of_validate_error {ω : Type} {factory : Factory ω}
    (h : timing.validate = .error error) : build factory spec timing = .error error := by
  unfold build
  rw [Tempo.ofTiming_of_error h]
  rfl

theorem exists_of_build_eq_error {ω : Type} {factory : Factory ω} (valid : timing.validate = .ok ())
    (h : build factory spec timing = .error error) :
    ∃ name widget, spec.widgets.get? name = some widget ∧
      factory.build name widget.kind widget.params = .error error ∧
      ∀ other flawed flaw, spec.widgets.get? other = some flawed →
        factory.build other flawed.kind flawed.params = .error flaw → name ≤ other := by
  obtain ⟨tempo, valid⟩ := Tempo.exists_ofTiming_iff.mpr valid
  rw [build_eq_of_ofTiming valid] at h
  simp only [← Entries.mem_toList_iff]
  exact Entries.exists_of_traverse_eq_error (map_eq_error_iff.mp h)

/--
A scene can be made live if the timing makes sense and each of its widgets can be made. It then has
the widgets that were declared and no others, each of them empty, and all the bindings that were
declared, in their order, those that name no method or no widget included. Otherwise it is the
timing that is wrong, or the first of the widgets that cannot be made.
-/
theorem build_stock_iff (spec : SceneSpec) (timing : Timing) :
    ((∃ engine, build .stock spec timing = .ok engine) ↔
      timing.validate = .ok () ∧
      ∀ name widget, spec.widgets.get? name = some widget → widget.IsBuildable) ∧
    (∀ engine, build .stock spec timing = .ok engine →
      engine.widgets.keys = spec.widgets.keys ∧
      (∀ name widget, spec.widgets.get? name = some widget →
        ∃ made, engine.widgets.get? name = some made ∧ Widget.kind made = widget.kind ∧
          widget.Makes name made) ∧
      engine.routing.routes.keys = spec.eventBindings.keys ∧
      ∀ kind declared, spec.eventBindings.get? kind = some declared →
        ∃ bindings, engine.routing.bindings? kind = some bindings ∧
          bindings = declared.map .parse ∧
          bindings.map (·.label) = declared.map (·.target)) ∧
    (∀ error, timing.validate = .error error →
      build .stock spec timing = .error error ∧ ∃ cause, error = .config cause) ∧
    ∀ error, timing.validate = .ok () → build .stock spec timing = .error error →
      ∃ name widget reason, spec.widgets.get? name = some widget ∧ ¬ widget.IsBuildable ∧
        (∀ other flawed, spec.widgets.get? other = some flawed → ¬ flawed.IsBuildable →
          bytes name ≤ bytes other) ∧
        error = .instantiation name reason := by
  refine ⟨?_, ?_, ?_, ?_⟩
  · rw [exists_build_eq_ok_iff]
    simp only [Factory.build_stock_eq_ok_iff, WidgetSpec.exists_makes_iff]
  · intro engine built
    refine ⟨widgetNames_build built, ?_, ?_, ?_⟩
    · intro name widget known
      obtain ⟨made, h⟩ := (exists_build_eq_ok_iff.mp ⟨engine, built⟩).2 name widget known
      have makes := Factory.build_stock_eq_ok_iff.mp h
      refine ⟨made, ?_, makes.kind_eq, makes⟩
      rw [get?_widgets_build built, known, Option.bind_some, h]
      rfl
    · rw [routing_build built]
      apply Entries.keys_map
    · intro kind declared known
      refine ⟨_, ?_, rfl, ?_⟩
      · rw [routing_build built]
        unfold Routing.bindings? Routing.ofSpecs
        rw [Entries.get?_map, known, Option.map_some]
      · simp only [List.map_map, Function.comp_def, Binding.label_parse]
  · intro error invalid
    obtain ⟨cause, same, _⟩ := Timing.validate_eq_error_iff.mp invalid
    exact ⟨build_of_validate_error invalid, cause, same⟩
  · intro error valid failed
    obtain ⟨name, widget, known, flaw, least⟩ := exists_of_build_eq_error valid failed
    obtain ⟨reason, same⟩ := Factory.exists_of_build_stock_eq_error flaw
    refine ⟨name, widget, reason, known, ?_, ?_, same⟩
    · exact Factory.exists_build_stock_eq_error_iff.mp ⟨error, flaw⟩
    · intro other flawed declared wrong
      obtain ⟨flaw, failed⟩ := Factory.exists_build_stock_eq_error_iff.mpr wrong
      exact bytes_le_bytes_iff.mpr (least other flawed flaw declared failed)

/--
Of two widgets that cannot be made, the one whose name has the smaller bytes is named, although it
would come last in a dictionary. Bindings that name no widget or no method keep no scene from being
made live.
-/
theorem build_stock_of_two_flawed :
    let board : WidgetSpec := { kind := "grid", params := .ofList [("rows", .ofIndex 4)] }
    let line : WidgetSpec := { kind := "queue", params := .ofList [("capacity", .ofIndex 0)] }
    let whole : SceneSpec := {
      name := "maze", algorithm := "bfs", widgets := .ofList [("board", board)]
      eventBindings := .ofList [("visit", [.bare "ghost.onVisit", .bare "board"])] }
    let flawed : SceneSpec := {
      name := "maze", algorithm := "bfs"
      widgets := .ofList [("étage", line), ("tree", { kind := "heap" })] }
    (∃ reason, build .stock flawed {} = .error (.instantiation "tree" reason)) ∧
    bytes "tree" ≤ bytes "étage" ∧
    ∃ engine, build .stock whole {} = .ok engine ∧
      (∃ made, engine.widgets.get? "board" = some made ∧ board.Makes "board" made) ∧
      ∃ bindings, engine.routing.bindings? "visit" = some bindings ∧
        bindings.map (·.label) = ["ghost.onVisit", "board"] := by
  intro board line whole flawed
  have failed : build .stock flawed {} =
      .error (.instantiation "tree" "unknown widget type `heap`") := by
    dsimp only [flawed, line]
    rfl
  have declared : flawed.widgets.get? "étage" = some line := by
    dsimp only [flawed, line]
    rfl
  have full : ¬ line.IsBuildable := by
    intro h
    cases h with
    | queue _ capacity =>
      obtain null | ⟨n, exact, same, pos⟩ := capacity (.ofIndex 0) rfl
      · cases null
      · cases same
        cases pos
    | grid kind => simp [line] at kind
    | stack kind => simp [line] at kind
    | counter kind => simp [line] at kind
  obtain ⟨_, _, _, _, _, least, same⟩ := (build_stock_iff flawed {}).2.2.2 _ rfl failed
  cases same
  let engine : Engine StockWidget := {
    name := "maze", algorithm := "bfs"
    widgets := .ofList [("board", .grid { name := "board", rows := 4, cols := 5 })]
    routing := .ofSpecs whole.eventBindings, tempo := { timing := {}, factor := 1.0 } }
  have built : build .stock whole {} = .ok engine := rfl
  obtain ⟨_, pool, _, routes⟩ := (build_stock_iff whole {}).2.1 engine built
  obtain ⟨made, found, _, makes⟩ := pool "board" board rfl
  obtain ⟨bindings, bound, _, labels⟩ := routes "visit" _ rfl
  exact ⟨⟨_, failed⟩, least "étage" line declared full, engine, built, ⟨made, found, makes⟩,
    bindings, bound, labels⟩

end Engine

end Stagecraft
