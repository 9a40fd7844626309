import Mathlib.Data.List.Perm.Basic
import Stagecraft.Engine
import Stagecraft.Table.Lemmas

/-!
This module contains routings as they are declared, all at once or binding by binding, and their
bindings as one list. No binding is lost on either way, and each of them is either malformed or
refers to a widget.
-/

namespace Stagecraft

namespace SceneSpec

def withBindings (s : SceneSpec) (declared : List (String × BindingSpec)) : SceneSpec :=
  declared.foldl (fun s pair => s.withBinding pair.1 pair.2) s

end SceneSpec

namespace Routing

def bindAll (r : Routing) (declared : List (String × BindingSpec)) : Routing :=
  declared.foldl (fun r pair => r.bind pair.1 pair.2) r

/--
All bindings of a routing in one list: the kinds of events in their order, and for each of them the
bindings as they were declared, no less and no more often.
-/
structure Enumerates (r : Routing) (all : List (String × Binding)) : Prop where
  kinds : (all.map (·.1)).Pairwise (· ≤ ·)
  bindings (kind : String) :
    (all.filter (·.1 = kind)).map (·.2) = (r.bindings? kind).getD []

theorem bindings?_ofSpecs (specs : Table (List BindingSpec)) (kind : String) :
    (ofSpecs specs).bindings? kind = (specs.get? kind).map (·.map .parse) := by
  unfold bindings? ofSpecs
  apply Entries.get?_map

theorem getD_bindings?_ofSpecs (specs : Table (List BindingSpec)) (kind : String) :
    ((ofSpecs specs).bindings? kind).getD [] = ((specs.get? kind).getD []).map .parse := by
  rw [bindings?_ofSpecs]
  cases specs.get? kind with
  | none => rfl
  | some => rfl

theorem bind_ofSpecs (s : SceneSpec) (kind : String) (spec : BindingSpec) :
    (ofSpecs s.eventBindings).bind kind spec =
      ofSpecs (s.withBinding kind spec).eventBindings := by
  have before := getD_bindings?_ofSpecs s.eventBindings kind
  unfold bindings? at before
  unfold bind
  rw [before]
  unfold ofSpecs SceneSpec.withBinding
  rw [Table.map_insert, List.map_append, List.map_singleton]

/--
It does not matter whether bindings are declared before the routing is made or added to it.
-/
theorem bindAll_ofSpecs (s : SceneSpec) (declared : List (String × BindingSpec)) :
    (ofSpecs s.eventBindings).bindAll declared =
      ofSpecs (s.withBindings declared).eventBindings := by
  unfold bindAll SceneSpec.withBindings
  induction declared generalizing s with
  | nil => rfl
  | cons pair rest ih => rw [List.foldl_cons, List.foldl_cons, bind_ofSpecs, ih]

section Bind

variable (r : Routing) (kind : String) (declared : List (String × BindingSpec))

theorem bindings?_bind (spec : BindingSpec) (other : String) :
    (r.bind kind spec).bindings? other =
      if kind = other then some ((r.bindings? other).getD [] ++ [.parse spec])
      else r.bindings? other := by
  unfold bind bindings?
  rw [Table.get?_insert]
  split
  next same => rw [same]
  · rfl

theorem getD_bindings?_bindAll :
    ((r.bindAll declared).bindings? kind).getD [] =
      (r.bindings? kind).getD [] ++ (declared.filter (·.1 = kind)).map (.parse ·.2) := by
  unfold bindAll
  induction declared generalizing r with
  | nil => simp
  | cons pair rest ih =>
    rw [List.foldl_cons, ih, bindings?_bind]
    by_cases same : pair.1 = kind
    · simp [same]
    · simp [same]

theorem bindings?_bindAll_eq_none_iff :
    (r.bindAll declared).bindings? kind = none ↔
      r.bindings? kind = none ∧ kind ∉ declared.map (·.1) := by
  unfold bindAll
  induction declared generalizing r with
  | nil => simp
  | cons pair rest ih =>
    rw [List.foldl_cons, ih, bindings?_bind, List.map_cons, List.mem_cons, not_or]
    by_cases same : pair.1 = kind
    · simp [same]
    · simp [same, Ne.symm same]

end Bind

theorem enumerates_bindings (r : Routing) : r.Enumerates r.bindings where
  kinds := r.routes.pairwise_flatMap id
  bindings kind := by
    have found := r.routes.map_filter_flatMap id kind
    rw [Option.map_id] at found
    exact found

/--
Each binding of a routing has a place of its own among those that are malformed or those that name a
widget, and both keep the order of all.
-/
theorem exists_named (r : Routing) :
    ∃ named : List (String × Binding),
      r.bindings.Perm (r.malformed ++ named) ∧ r.malformed.Sublist r.bindings ∧
      named.Sublist r.bindings ∧
      r.malformed.map (·.2) = r.malformed.map (.malformed ·.2.label) ∧
      named.map (·.2.widget?) = r.referenced.map some := by
  refine ⟨r.bindings.filter (!·.2.isMalformed), ?_, ?_, ?_, ?_, ?_⟩
  · exact (List.filter_append_perm _ _).symm
  · exact List.filter_sublist
  · exact List.filter_sublist
  · apply List.map_congr_left
    intro pair mem
    obtain ⟨kind, binding⟩ := pair
    obtain ⟨_, malformed⟩ := List.mem_filter.mp mem
    cases binding with
    | method => cases malformed
    | malformed raw => rfl
  · unfold referenced
    induction r.bindings with
    | nil => rfl
    | cons pair rest ih =>
      obtain ⟨kind, binding⟩ := pair
      cases binding with
      | method widget method params => exact congrArg (some widget :: ·) ih
      | malformed raw => exact ih

/--
A routing is the same whether its bindings are declared at once or one after the other. For each
kind of event it has the bindings that were declared for it, as often as they were and in that
order, and none are found only if nothing was declared for that kind. What is said to be malformed
and what is said to be referred to is all of them, each of them once.
-/
theorem bindAll_eq_ofSpecs (s : SceneSpec) (declared : List (String × BindingSpec)) :
    let r := (ofSpecs s.eventBindings).bindAll declared
    r = ofSpecs (s.withBindings declared).eventBindings ∧
    (∀ kind,
      (r.bindings? kind).getD [] = ((s.eventBindings.get? kind).getD [] ++
        (declared.filter (·.1 = kind)).map (·.2)).map .parse ∧
      (r.bindings? kind = none ↔
        s.eventBindings.get? kind = none ∧ kind ∉ declared.map (·.1))) ∧
    ∃ all named, r.Enumerates all ∧ all.Perm (r.malformed ++ named) ∧
      r.malformed.Sublist all ∧ named.Sublist all ∧
      r.malformed.map (·.2) = r.malformed.map (.malformed ·.2.label) ∧
      named.map (·.2.widget?) = r.referenced.map some := by
  intro r
  refine ⟨bindAll_ofSpecs s declared, ?_, ?_⟩
  · intro kind
    constructor
    · rw [getD_bindings?_bindAll, getD_bindings?_ofSpecs, List.map_append, List.map_map]
      rfl
    · rw [bindings?_bindAll_eq_none_iff, bindings?_ofSpecs, Option.map_eq_none_iff]
  · obtain ⟨named, partition⟩ := r.exists_named
    exact ⟨r.bindings, named, r.enumerates_bindings, partition⟩

end Routing

end Stagecraft
