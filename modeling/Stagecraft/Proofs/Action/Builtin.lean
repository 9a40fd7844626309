import Stagecraft.Action.Registry
import Stagecraft.Proofs.Action.Cue
import Stagecraft.Table.Lemmas

/-!
This module contains what holds of the built-in actions: the registry of them finds each one under
its name and nothing else, an action that fails has no effect, and none of them brings an engine,
takes it away, or changes the adapter, the scenario, or the tempo.
-/

namespace Stagecraft

variable {ω σ : Type}

def Builtin.names : List String :=
  ["highlight", "outro", "play_events", "setup_scene", "setup_widgets", "show_text", "show_title",
    "wait"]

theorem Builtin.ofName?_eq_some_iff {name : String} {builtin : Builtin} :
    ofName? name = some builtin ↔ name = builtin.name := by
  constructor
  · intro h
    simpa [eq_comm] using List.find?_some h
  · intro h
    subst h
    cases builtin with
    | _ => rfl

namespace Cue

/--
What an action is when it is ready: its parts come from its arguments and from what it finds in the
run.
-/
inductive Ready (args : Args) (context : Context ω) : Builtin → Cue ω → Prop where
  | showTitle (text : String) : Ready args context .showTitle (.showTitle text)
  | showText (text : String) :
    Ready args context .showText (.showText ((args.text? "id").getD "caption") text)
  | setupScene (engine : Engine ω) (known : context.engine = some engine) :
    Ready args context .setupScene (.setupScene engine.name engine.algorithm)
  | setupWidgets (engine : Engine ω) (known : context.engine = some engine) :
    Ready args context .setupWidgets (.setupWidgets engine.widgetNames)
  | playEvents (engine : Engine ω) (known : context.engine = some engine) (events : List Event)
    (limit : Option Nat) : Ready args context .playEvents (.playEvents engine events limit)
  | highlight (target effect : String) : Ready args context .highlight (.highlight target effect)
  | wait : Ready args context .wait (.wait ((args.get? "seconds").bind (·.toFloat?)))
  | outro : Ready args context .outro (.outro context.stageNames)

theorem engine_of_requireEngine {context : Context ω} {engine : Engine ω}
    (h : context.requireEngine = .ok engine) : context.engine = some engine := by
  unfold Context.requireEngine at h
  split at h
  next known =>
    cases h
    exact known
  · cases h

theorem ready_of_ofArgs {builtin : Builtin} {args : Args} {context : Context ω} {cue : Cue ω}
    (h : ofArgs builtin args context = .ok cue) : Ready args context builtin cue := by
  cases builtin with
  | showTitle =>
    cases h
    apply Ready.showTitle
  | showText =>
    obtain ⟨text, _, h⟩ := exists_of_bind_eq_ok h
    cases h
    apply Ready.showText
  | setupScene =>
    obtain ⟨engine, found, h⟩ := exists_of_bind_eq_ok h
    cases h
    exact .setupScene engine (engine_of_requireEngine found)
  | setupWidgets =>
    obtain ⟨engine, found, h⟩ := exists_of_bind_eq_ok h
    cases h
    exact .setupWidgets engine (engine_of_requireEngine found)
  | playEvents =>
    obtain ⟨engine, found, h⟩ := exists_of_bind_eq_ok h
    obtain ⟨adapter, _, h⟩ := exists_of_bind_eq_ok h
    obtain ⟨events, _, h⟩ := exists_of_bind_eq_ok h
    cases h
    exact .playEvents engine (engine_of_requireEngine found) events _
  | highlight =>
    obtain ⟨target, _, h⟩ := exists_of_bind_eq_ok h
    cases h
    apply Ready.highlight
  | wait =>
    cases h
    exact .wait
  | outro =>
    cases h
    exact .outro

end Cue

variable [Widget ω] [Stage σ]

namespace Registry

theorem get?_builtins (name : String) :
    (builtins : Registry ω σ).actions.get? name =
      (Builtin.ofName? name).map Builtin.action := by
  unfold builtins
  rw [Table.get?_ofList]
  cases h : Builtin.ofName? name with
  | none =>
    rw [Option.map_none, List.lookup_eq_none_iff]
    intro pair mem
    obtain ⟨builtin, known, same⟩ := List.mem_map.mp (List.mem_reverse.mp mem)
    have other := List.find?_eq_none.mp h builtin known
    rw [decide_eq_true_iff] at other
    rw [← same, bne_iff_ne]
    exact Ne.symm other
  | some builtin =>
    rw [Builtin.ofName?_eq_some_iff] at h
    subst h
    cases builtin with
    | _ => rfl

theorem names_builtins : (builtins : Registry ω σ).names = Builtin.names := by
  unfold builtins names
  -- The names do not depend on the actions, so it is enough to look at a table without them.
  rw [← Entries.keys_map _ fun _ _ => (), Table.map_ofList, List.map_map]
  change (Table.ofList (Builtin.all.map fun builtin => (builtin.name, ()))).keys = _
  decide

end Registry

/--
An action that fails has had no effect.
-/
theorem Builtin.action_of_error {builtin : Builtin} {args : Args} {seconds : Float}
    {p after : Performance ω σ} {error : Error}
    (h : builtin.action args seconds p = (.error error, after)) : after = p := by
  rw [action_eq] at h
  split at h
  · simp at h
  · cases h
    rfl

namespace Cue

/--
An action has no effect on the adapter, the scenario, and the tempo.
-/
theorem exists_context_perform (cue : Cue ω) (seconds : Float) (p : Performance ω σ) :
    ∃ engine vars failures eventsPlayed,
      (cue.perform seconds p).context =
        { p.context with engine, vars, failures, eventsPlayed } := by
  cases cue with
  | setupWidgets names =>
    cases names with
    | nil => exact ⟨_, _, _, _, rfl⟩
    | cons => exact ⟨_, _, _, _, rfl⟩
  | _ => exact ⟨_, _, _, _, rfl⟩

theorem isSome_engine_perform {builtin : Builtin} {args : Args} {cue : Cue ω}
    {p : Performance ω σ} (h : Ready args p.context builtin cue) (seconds : Float) :
    (cue.perform seconds p).context.engine.isSome = p.context.engine.isSome := by
  cases h with
  | playEvents engine known events limit =>
    rw [known]
    rfl
  | setupWidgets engine known =>
    cases engine.widgetNames with
    | nil => rfl
    | cons => rfl
  | _ => rfl

end Cue

end Stagecraft
