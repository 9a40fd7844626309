import Stagecraft.Table.Lemmas

/-!
This module contains tables in which a name is taken once: what comes later under the same name is
refused. Such a table has under each name what came first under it, and its keys are a directory of
all names.
-/

namespace Stagecraft

/--
The names that something was registered under, each of them once and in their order.
-/
structure IsDirectory {α : Type} (registered : List (String × α)) (names : List String) : Prop where
  ascending : names.Pairwise (· < ·)
  mem_iff (name : String) : name ∈ names ↔ ∃ value, registered.lookup name = some value

theorem lookup_concat {α : Type} (registered : List (String × α)) (name other : String)
    (value : α) :
    (registered ++ [(name, value)]).lookup other =
      (registered.lookup other).or (if name = other then some value else none) := by
  rw [List.lookup_append, List.lookup_cons, List.lookup_nil]
  by_cases same : name = other
  · rw [if_pos same, beq_iff_eq.mpr same.symm]
  · rw [if_neg same, beq_eq_false_iff_ne.mpr (Ne.symm same)]

namespace Table

variable {α : Type} {t : Table α} {registered : List (String × α)} {name : String}

/--
The table has under each name what was registered first under it.
-/
def KeepsFirst (t : Table α) (registered : List (String × α)) : Prop :=
  ∀ name, t.get? name = registered.lookup name

theorem keepsFirst_toList (t : Table α) : t.KeepsFirst t.toList :=
  fun name => (t.lookup_toList name).symm

theorem keepsFirst_empty : (empty : Table α).KeepsFirst [] := fun _ => rfl

namespace KeepsFirst

theorem contains_eq (h : t.KeepsFirst registered) (name : String) :
    t.contains name = (registered.lookup name).isSome := by
  unfold Entries.contains
  rw [h name]

theorem refuse (h : t.KeepsFirst registered) (known : t.contains name = true) (value : α) :
    t.KeepsFirst (registered ++ [(name, value)]) := by
  intro other
  rw [h other, lookup_concat]
  by_cases same : name = other
  · subst same
    rw [h.contains_eq] at known
    obtain ⟨first, found⟩ := Option.isSome_iff_exists.mp known
    rw [found, Option.some_or]
  · rw [if_neg same, Option.or_none]

theorem insert (h : t.KeepsFirst registered) (unknown : t.contains name = false) (value : α) :
    KeepsFirst (t.insert name value) (registered ++ [(name, value)]) := by
  intro other
  rw [get?_insert, h other, lookup_concat]
  by_cases same : name = other
  · subst same
    rw [h.contains_eq, Option.isSome_eq_false_iff, Option.isNone_iff_eq_none] at unknown
    rw [unknown, Option.none_or, if_pos rfl]
  · rw [if_neg same, if_neg same, Option.or_none]

theorem isDirectory_keys (h : t.KeepsFirst registered) : IsDirectory registered t.keys where
  ascending := t.pairwise_keys
  mem_iff name := by
    rw [← h name, ← Option.ne_none_iff_exists', ne_eq, Entries.get?_eq_none_iff,
      Decidable.not_not]

end KeepsFirst

end Table

end Stagecraft
