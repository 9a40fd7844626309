import Stagecraft.Proofs.Engine.Build
import Stagecraft.Proofs.Playback.Trial
import Stagecraft.Proofs.Widget.Evolution

/-!
This module contains what no playback changes of an engine: its name, its algorithm, its tempo, its
routing, and which widgets it has. The widgets themselves go through the calls that reach them, so
stock widgets keep their sizes, and keep to them.
-/

namespace Stagecraft

/--
The engine `live` is `engine` at a later time, and `R` relates what its widgets were to what they
are.
-/
structure Engine.Keeps {ω : Type} (R : ω → ω → Prop) (engine live : Engine ω) : Prop where
  name : live.name = engine.name
  algorithm : live.algorithm = engine.algorithm
  tempo : live.tempo = engine.tempo
  routing : live.routing = engine.routing
  widgetNames : live.widgetNames = engine.widgetNames
  widgets (name : String) : Option.Rel R (engine.widgets.get? name) (live.widgets.get? name)

section Rel

variable {α : Type} {R S : α → α → Prop}

theorem rel_refl (refl : ∀ a, R a a) (x : Option α) : Option.Rel R x x := by
  cases x with
  | none => exact .none
  | some a => exact .some (refl a)

theorem rel_trans (trans : ∀ a b c, R a b → R b c → R a c) {x y z : Option α}
    (h : Option.Rel R x y) (h' : Option.Rel R y z) : Option.Rel R x z := by
  cases h with
  | none => exact h'
  | some h =>
    cases h' with
    | some h' => exact .some (trans _ _ _ h h')

theorem rel_mono (mono : ∀ a b, R a b → S a b) {x y : Option α} (h : Option.Rel R x y) :
    Option.Rel S x y := by
  cases h with
  | none => exact .none
  | some h => exact .some (mono _ _ h)

theorem map_eq_of_rel {β : Type} {f : α → β} (same : ∀ a b, R a b → f b = f a) {x y : Option α}
    (h : Option.Rel R x y) : y.map f = x.map f := by
  cases h with
  | none => rfl
  | some h => exact congrArg some (same _ _ h)

end Rel

namespace Engine.Keeps

variable {ω : Type} {R S : ω → ω → Prop}

theorem refl (same : ∀ widget, R widget widget) (engine : Engine ω) : engine.Keeps R engine :=
  ⟨rfl, rfl, rfl, rfl, rfl, fun _ => rel_refl same _⟩

theorem trans (step : ∀ a b c, R a b → R b c → R a c) {first second third : Engine ω}
    (h : first.Keeps R second) (h' : second.Keeps R third) : first.Keeps R third where
  name := h'.name.trans h.name
  algorithm := h'.algorithm.trans h.algorithm
  tempo := h'.tempo.trans h.tempo
  routing := h'.routing.trans h.routing
  widgetNames := h'.widgetNames.trans h.widgetNames
  widgets name := rel_trans step (h.widgets name) (h'.widgets name)

theorem mono (weaken : ∀ a b, R a b → S a b) {engine live : Engine ω} (h : engine.Keeps R live) :
    engine.Keeps S live where
  name := h.name
  algorithm := h.algorithm
  tempo := h.tempo
  routing := h.routing
  widgetNames := h.widgetNames
  widgets name := rel_mono weaken (h.widgets name)

end Engine.Keeps

open Widget (Evolves)

section Playback

variable {ω σ : Type} [Widget ω] [Stage σ]

theorem Ensemble.evolves_update (e : Ensemble ω σ) (call : Call) (name : String) :
    Option.Rel (Evolves σ) (e.widgets.get? name) ((e.update call).2.widgets.get? name) := by
  unfold update
  split
  · exact rel_refl (fun _ => .refl) _
  next widget found =>
    dsimp only
    rw [Table.get?_insert]
    split
    next same =>
      rw [← same, found]
      exact .some (.update .refl _ _ _ _)
    · exact rel_refl (fun _ => .refl) _

theorem Trial.evolves_run (tempo : Tempo) (names : List String) (t : Trial) (e : Ensemble ω σ)
    (name : String) :
    Option.Rel (Evolves σ) (e.widgets.get? name) ((t.run tempo names e).2.widgets.get? name) := by
  unfold run
  split
  · exact rel_refl (fun _ => .refl) _
  · apply Ensemble.evolves_update

theorem Trial.evolves_runAll (tempo : Tempo) (names : List String) (ts : List Trial)
    (e : Ensemble ω σ) (name : String) :
    Option.Rel (Evolves σ) (e.widgets.get? name)
      ((runAll tempo names ts e).2.widgets.get? name) := by
  induction ts generalizing e with
  | nil => exact rel_refl (fun _ => .refl) _
  | cons t rest ih =>
    have first := evolves_run tempo names t e name
    have others := ih (t.run tempo names e).2
    exact rel_trans (R := Evolves σ) (fun _ _ _ h h' => h.trans h') first others

theorem Router.keeps_foldl_dispatch (events : List Event) (r : Router ω σ) :
    r.engine.Keeps (Evolves σ) (events.foldl dispatch r).engine := by
  rw [foldl_dispatch]
  refine ⟨rfl, rfl, rfl, rfl, ?_, ?_⟩
  · apply Trial.keys_runAll
  · intro name
    exact Trial.evolves_runAll _ _ _ r.ensemble name

end Playback

section Sound

open StockPool (stock?)

variable {ω : Type} [Widget ω] [StockPool ω]

/--
All stock widgets of an engine are sound.
-/
def Engine.IsSound (engine : Engine ω) : Prop :=
  ∀ name widget stock, engine.widgets.get? name = some widget → stock? widget = some stock →
    stock.IsSound

/--
All stock widgets that a factory makes are sound.
-/
def Factory.IsSound (factory : Factory ω) : Prop :=
  ∀ kind make, factory.constructors.get? kind = some make →
    ∀ name params widget stock, make name params = .ok widget → stock? widget = some stock →
      stock.IsSound

theorem Engine.isSound_build {factory : Factory ω} {spec : SceneSpec} {timing : Timing}
    {engine : Engine ω} (h : factory.IsSound) (built : build factory spec timing = .ok engine) :
    engine.IsSound := by
  intro name widget stock known same
  rw [get?_widgets_build built] at known
  obtain ⟨declared, _, made⟩ := Option.bind_eq_some_iff.mp known
  cases result : factory.build name declared.kind declared.params with
  | error error =>
    rw [result] at made
    cases made
  | ok =>
    rw [result] at made
    cases made
    obtain ⟨make, registered, made⟩ := Factory.build_eq_ok_iff.mp result
    exact h _ make registered _ _ widget stock made same

theorem Engine.Keeps.isSound {σ : Type} [Stage σ] {engine live : Engine ω}
    (h : engine.Keeps (Resembles σ) live) (sound : engine.IsSound) : live.IsSound := by
  intro name widget stock known same
  have rel := h.widgets name
  rw [known] at rel
  cases found : engine.widgets.get? name with
  | none =>
    rw [found] at rel
    cases rel
  | some first =>
    rw [found] at rel
    cases rel with
    | some resembles =>
      have rel := resembles.stock
      rw [same] at rel
      cases start : stock? first with
      | none =>
        rw [start] at rel
        cases rel
      | some left =>
        rw [start] at rel
        cases rel with
        | some kept => exact kept.2 (sound name first left found start)

theorem WidgetSpec.Makes.isSound {name : String} {widget : WidgetSpec} {made : StockWidget}
    (h : widget.Makes name made) : made.IsSound := by
  cases h with
  | grid => simp [StockWidget.IsSound, Grid.IsSound]
  | queue => simp [StockWidget.IsSound, Queue.IsSound]
  | boundedQueue => simp [StockWidget.IsSound, Queue.IsSound]
  | stack => trivial
  | counter => trivial

theorem Factory.isSound_stock : stock.IsSound := by
  intro kind make known name params widget _ made equal
  cases equal
  have built : stock.build name kind params = .ok widget :=
    build_eq_ok_iff.mpr ⟨make, known, made⟩
  have makes : WidgetSpec.Makes name { kind, params } widget := build_stock_eq_ok_iff.mp built
  exact makes.isSound

theorem Factory.IsSound.map {α : Type} [Widget α] {factory : Factory StockWidget}
    (h : factory.IsSound) : (factory.map .inl : Factory (StockWidget ⊕ α)).IsSound := by
  intro kind make known name params widget left made equal
  unfold Factory.map at known
  rw [Entries.get?_map] at known
  obtain ⟨stockMake, registered, rfl⟩ := Option.map_eq_some_iff.mp known
  obtain ⟨other, done, same⟩ := map_eq_ok_iff.mp made
  cases same
  exact h kind stockMake registered name params other left done equal

theorem Factory.IsSound.register {factory next : Factory ω} (h : factory.IsSound)
    {kind : String} {make : Constructor ω}
    (sound : ∀ name params widget stock, make name params = .ok widget →
      stock? widget = some stock → stock.IsSound)
    (done : factory.register kind make = .ok next) : next.IsSound := by
  unfold Factory.register at done
  split at done
  · cases done
  · cases done
    intro other found known
    dsimp only at known
    rw [Table.get?_insert] at known
    split at known
    · cases known
      exact sound
    · exact h other found known

end Sound

end Stagecraft
