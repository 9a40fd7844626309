import Stagecraft.Routing
import Stagecraft.Table.Lemmas

/-!
This module contains what holds of the targets of bindings. A target names a method of a widget if
it has one point, with text on both sides of it; a binding that was made from a target is called by
it, whether it does or not.
-/

namespace Stagecraft

namespace Binding

/--
A target that names a method of a widget: the two names with the only point between them.
-/
structure Names (target widget method : String) : Prop where
  target_eq : target = widget ++ "." ++ method
  widget_ne : widget ≠ ""
  method_ne : method ≠ ""
  widget_point : '.' ∉ widget.toList
  method_point : '.' ∉ method.toList

theorem takeWhile_append_point {before after : List Char} (h : '.' ∉ before) :
    (before ++ '.' :: after).takeWhile (· ≠ '.') = before := by
  induction before with
  | nil => rfl
  | cons c rest ih =>
    rw [List.mem_cons, not_or] at h
    rw [List.cons_append, List.takeWhile_cons_of_pos (by simpa using Ne.symm h.1), ih h.2]

theorem dropWhile_append_point {before after : List Char} (h : '.' ∉ before) :
    (before ++ '.' :: after).dropWhile (· ≠ '.') = '.' :: after := by
  induction before with
  | nil => rfl
  | cons c rest ih =>
    rw [List.mem_cons, not_or] at h
    rw [List.cons_append, List.dropWhile_cons_of_pos (by simpa using Ne.symm h.1), ih h.2]

theorem not_mem_takeWhile_point (cs : List Char) : '.' ∉ cs.takeWhile (· ≠ '.') := by
  intro mem
  have others := List.all_eq_true.mp (List.all_takeWhile (p := (· ≠ '.')) (l := cs)) _ mem
  simp at others

theorem dropWhile_point_eq_cons {cs : List Char} (h : (cs.dropWhile (· ≠ '.')).tail ≠ []) :
    cs.dropWhile (· ≠ '.') = '.' :: (cs.dropWhile (· ≠ '.')).tail := by
  induction cs with
  | nil => exact absurd rfl h
  | cons c rest ih =>
    by_cases point : c = '.'
    · subst point
      rfl
    · rw [List.dropWhile_cons_of_pos (by simpa using point)] at h ⊢
      exact ih h

theorem parts?_eq_some_iff {target widget method : String} :
    parts? target = some (widget, method) ↔ Names target widget method := by
  unfold parts?
  dsimp only
  constructor
  · intro h
    split at h
    · cases h
    next whole =>
      simp only [not_or] at whole
      obtain ⟨left, right, point⟩ := whole
      cases h
      refine ⟨?_, ?_, ?_, ?_, ?_⟩
      · apply String.toList_injective
        have divided := List.takeWhile_append_dropWhile (p := (· ≠ '.')) (l := target.toList)
        rw [dropWhile_point_eq_cons right] at divided
        simpa using divided.symm
      · rwa [ne_eq, String.ofList_eq_empty_iff]
      · rwa [ne_eq, String.ofList_eq_empty_iff]
      · simpa using not_mem_takeWhile_point target.toList
      · simpa using point
  · intro h
    have chars : target.toList = widget.toList ++ '.' :: method.toList := by
      rw [h.target_eq]
      simp
    have left : widget.toList ≠ [] := by simpa using h.widget_ne
    have right : method.toList ≠ [] := by simpa using h.method_ne
    rw [chars, takeWhile_append_point h.widget_point, dropWhile_append_point h.widget_point,
      List.tail_cons, if_neg]
    · simp
    · simp only [not_or]
      exact ⟨left, right, h.method_point⟩

theorem parse_eq_method_iff {spec : BindingSpec} {widget method : String} {params : Table Value} :
    parse spec = .method widget method params ↔
      Names spec.target widget method ∧ params = spec.params := by
  unfold parse
  rw [← parts?_eq_some_iff]
  cases parts? spec.target with
  | none => simp
  | some parts => simp [Prod.ext_iff, and_assoc, eq_comm]

theorem label_parse (spec : BindingSpec) : (parse spec).label = spec.target := by
  cases made : parse spec with
  | method widget name params => exact (parse_eq_method_iff.mp made).1.target_eq.symm
  | malformed raw =>
    unfold parse at made
    split at made
    · cases made
    · cases made
      rfl

theorem parse_eq_malformed_iff {spec : BindingSpec} {raw : String} :
    parse spec = .malformed raw ↔
      raw = spec.target ∧ ∀ widget method, ¬Names spec.target widget method := by
  have label := label_parse spec
  constructor
  · intro made
    rw [made] at label
    refine ⟨label, ?_⟩
    intro widget method names
    rw [parse_eq_method_iff.mpr ⟨names, rfl⟩] at made
    cases made
  · rintro ⟨rfl, nameless⟩
    cases made : parse spec with
    | method widget name params =>
      exact absurd (parse_eq_method_iff.mp made).1 (nameless widget name)
    | malformed raw =>
      rw [made] at label
      exact congrArg malformed label

theorem isMalformed_parse_iff {spec : BindingSpec} :
    (parse spec).isMalformed = false ↔ ∃ widget method, Names spec.target widget method := by
  simp only [← parts?_eq_some_iff]
  unfold parse
  cases parts? spec.target with
  | none => simp [isMalformed]
  | some parts => exact ⟨fun _ => ⟨parts.1, parts.2, rfl⟩, fun _ => rfl⟩

end Binding

end Stagecraft
