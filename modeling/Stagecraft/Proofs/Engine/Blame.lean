import Stagecraft.Proofs.Engine.Buildable

/-!
This module contains which widget is named when a scene cannot be made live. It is the one that
cannot be made, unless its constructor says that another one could not be: then that one is named.
-/

namespace Stagecraft

theorem Error.exists_ofMaking (name : String) (cause : Error) :
    ∃ widget reason, ofMaking name cause = .instantiation widget reason ∧
      (widget = name ∨ cause = .instantiation widget reason) := by
  cases cause with
  | instantiation inner reason => exact ⟨inner, reason, rfl, .inr rfl⟩
  | _ => exact ⟨name, _, rfl, .inl rfl⟩

namespace Factory

variable {ω : Type} {factory : Factory ω} {name kind inner : String} {params : Table Value}
  {error : Error}

/--
The constructor of a widget fails since another one, as it says, could not be made.
-/
structure Blames (factory : Factory ω) (name kind : String) (params : Table Value)
    (inner : String) : Prop where
  ne : inner ≠ name
  failed : ∃ make reason, factory.constructors.get? kind = some make ∧
    make name params = .error (.instantiation inner reason)

theorem Blames.exists_build_eq (h : factory.Blames name kind params inner) :
    ∃ reason, factory.build name kind params = .error (.instantiation inner reason) := by
  obtain ⟨make, reason, known, failed⟩ := h.failed
  refine ⟨reason, ?_⟩
  rw [build_of_registered known, failed]
  rfl

/--
What cannot be made is reported as a widget that cannot be made.
-/
theorem exists_of_build_eq_error (h : factory.build name kind params = .error error) :
    ∃ widget reason, error = .instantiation widget reason ∧
      (widget = name ∨ factory.Blames name kind params widget) := by
  rcases build_eq_error_iff.mp h with ⟨_, rfl⟩ | ⟨make, cause, known, failed, rfl⟩
  · exact ⟨name, _, rfl, .inl rfl⟩
  · obtain ⟨widget, reason, same, named⟩ := cause.exists_ofMaking name
    refine ⟨widget, reason, same, ?_⟩
    by_cases self : widget = name
    · exact .inl self
    · right
      refine ⟨self, make, reason, known, ?_⟩
      rw [failed, named.resolve_left self]

theorem names_iff (h : factory.build name kind params = .error error) :
    (∃ reason, error = .instantiation name reason) ↔
      ∀ inner, ¬factory.Blames name kind params inner := by
  constructor
  · rintro ⟨reason, rfl⟩ inner blames
    obtain ⟨_, same⟩ := blames.exists_build_eq
    rw [h] at same
    cases same
    exact blames.ne rfl
  · intro silent
    obtain ⟨widget, reason, rfl, named⟩ := exists_of_build_eq_error h
    obtain rfl := named.resolve_right (silent widget)
    exact ⟨reason, rfl⟩

/--
A widget that cannot be made is named in the error, if its constructor does not blame another one;
else that one is named. A scene whose timing makes sense fails with the error of the first of its
widgets, by the bytes of their names, that cannot be made.
-/
theorem names_of_build_eq_error (factory : Factory ω) :
    (∀ name kind params error, factory.build name kind params = .error error →
      (∃ widget reason, error = .instantiation widget reason ∧
        (widget = name ∨ factory.Blames name kind params widget)) ∧
      ((∃ reason, error = .instantiation name reason) ↔
        ∀ inner, ¬factory.Blames name kind params inner)) ∧
    ∀ spec timing error, timing.validate = .ok () →
      Engine.build factory spec timing = .error error →
      ∃ name declared, spec.widgets.get? name = some declared ∧
        factory.build name declared.kind declared.params = .error error ∧
        (∀ other flawed flaw, spec.widgets.get? other = some flawed →
          factory.build other flawed.kind flawed.params = .error flaw → bytes name ≤ bytes other) ∧
        ((∃ reason, error = .instantiation name reason) ↔
          ∀ inner, ¬factory.Blames name declared.kind declared.params inner) := by
  constructor
  · intro name kind params error failed
    exact ⟨exists_of_build_eq_error failed, names_iff failed⟩
  · intro spec timing error valid failed
    obtain ⟨name, declared, known, flaw, least⟩ := Engine.exists_of_build_eq_error valid failed
    refine ⟨name, declared, known, flaw, ?_, names_iff flaw⟩
    intro other flawed wrong found broken
    exact bytes_le_bytes_iff.mpr (least other flawed wrong found broken)

/--
The stock widgets, and frames, which are never made since what is inside them is not.
-/
def framing : Factory StockWidget where
  constructors := stock.constructors.insert "frame" fun name _ =>
    .error (.instantiation s!"inner {name}" "because")

/--
A widget of a type that nobody knows is named. A frame is not, although it is the only widget of its
scene: the error names one that the scene does not declare.
-/
theorem names_of_build_eq_error_of_frame :
    let whole : SceneSpec := {
      name := "maze", algorithm := "bfs"
      widgets := .ofList [("tree", { kind := "frame" }), ("board", { kind := "heap" })] }
    let frame : SceneSpec := {
      name := "maze", algorithm := "bfs", widgets := .ofList [("tree", { kind := "frame" })] }
    (∃ reason, Engine.build framing whole {} = .error (.instantiation "board" reason)) ∧
    bytes "board" ≤ bytes "tree" ∧
    (∀ inner, ¬framing.Blames "board" "heap" .empty inner) ∧
    (∃ reason, Engine.build framing frame {} = .error (.instantiation "inner tree" reason)) ∧
    framing.Blames "tree" "frame" .empty "inner tree" := by
  intro whole frame
  have unmade : framing.build "tree" "frame" .empty =
      .error (.instantiation "inner tree" "because") := rfl
  have failed : Engine.build framing whole {} =
      .error (.instantiation "board" "unknown widget type `heap`") := rfl
  have broken : Engine.build framing frame {} =
      .error (.instantiation "inner tree" "because") := rfl
  obtain ⟨name, declared, known, flaw, least, named⟩ :=
    (names_of_build_eq_error framing).2 whole {} _ rfl failed
  have mem : name ∈ ["board", "tree"] := Entries.mem_keys_of_get? known
  simp only [List.mem_cons, List.not_mem_nil, or_false] at mem
  obtain rfl | rfl := mem
  · cases known
    have first : bytes "board" ≤ bytes "tree" := least "tree" { kind := "frame" } _ rfl unmade
    have silent := named.mp ⟨_, rfl⟩
    obtain ⟨⟨widget, reason, same, blamed⟩, _⟩ :=
      (names_of_build_eq_error framing).1 "tree" "frame" .empty _ unmade
    obtain ⟨rfl, rfl⟩ := Error.instantiation.inj same
    exact ⟨⟨_, failed⟩, first, silent, ⟨_, broken⟩, blamed.resolve_left (by decide)⟩
  · cases known
    have other := Except.error.inj (flaw.symm.trans unmade)
    simp at other

/--
A widget is not always named in the error that says why it cannot be made, neither by the factory
nor by a scene that has no other widget.
-/
theorem not_forall_build_eq_error_names :
    let spec : SceneSpec := {
      name := "maze", algorithm := "bfs", widgets := .ofList [("tree", { kind := "frame" })] }
    (∃ make, stock.register "frame" make = .ok framing) ∧
    framing.build "tree" "frame" .empty = .error (.instantiation "inner tree" "because") ∧
    Engine.build framing spec {} = .error (.instantiation "inner tree" "because") ∧
    (¬∀ name kind params error, framing.build name kind params = .error error →
      ∃ reason, error = .instantiation name reason) ∧
    ¬∀ error, Engine.build framing spec {} = .error error →
      ∃ name reason, name ∈ spec.widgets.keys ∧ error = .instantiation name reason := by
  intro spec
  refine ⟨⟨_, rfl⟩, rfl, rfl, ?_, ?_⟩
  · intro named
    obtain ⟨_, same⟩ := named "tree" "frame" .empty _ rfl
    exact absurd (Error.instantiation.inj same).1 (by decide)
  · intro named
    obtain ⟨name, _, declared, same⟩ := named _ rfl
    have mem : name ∈ ["tree"] := declared
    rw [List.mem_singleton.mp mem] at same
    exact absurd (Error.instantiation.inj same).1 (by decide)

end Factory

end Stagecraft
