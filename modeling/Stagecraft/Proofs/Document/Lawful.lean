import Stagecraft.Document.Schema.Reader
import Stagecraft.Document.Schema.Writer
import Stagecraft.Proofs.Document.Spelled

/-!
This module contains what makes a schema fit to write values that are to be read again: no two
fields answer to one name, what is left out of a document is what its absence stands for, and the
parts of a value determine it.
-/

namespace Stagecraft

/--
All names under which a field is read.
-/
def FieldName.all (name : FieldName) : List String := name.main :: name.aliases

def Fields.names : {ρ σ : Type} → Fields ρ σ → List String
  | _, _, .nil => []
  | _, _, .cons name _ _ _ rest => name.all ++ rest.names

mutual

/--
The number of containers that a schema asks for itself, without those in embedded values.
-/
def Schema.height : {α : Type} → Schema α → Nat
  | _, .list item => item.height + 1
  | _, .table item => item.height + 1
  | _, .optional item => item.height
  | _, .record _ fields _ _ => fields.height + 1
  | _, .tagged _ _ variants => variants.height + 1
  | _, .either _ _ fields _ _ => fields.height + 1
  | _, .text => 0
  | _, .flag => 0
  | _, .real => 0
  | _, .index => 0
  | _, .value => 0
  | _, .choice _ _ => 0

def Fields.height : {ρ σ : Type} → Fields ρ σ → Nat
  | _, _, .nil => 0
  | _, _, .cons _ _ _ schema rest => max schema.height rest.height

def Variants.height : {α : Type} → Variants α → Nat
  | _, .nil => 0
  | _, .cons _ _ fields _ _ rest => max fields.height rest.height

end

mutual

/--
Whether the doubles in a value are finite.
-/
def Schema.IsFinite : {α : Type} → Schema α → α → Prop
  | _, .real, x => x.isFinite = true
  | _, .list item, items => ∀ a ∈ items, item.IsFinite a
  | _, .table item, t => ∀ name a, t.get? name = some a → item.IsFinite a
  | _, .optional item, found => ∀ a, found = some a → item.IsFinite a
  | _, .record _ fields _ view, a => fields.IsFinite (view a)
  | _, .tagged _ _ variants, a => variants.IsFinite a
  | _, .either _ _ fields _ view, a => ∀ values, view a = .inr values → fields.IsFinite values
  | _, .text, _ => True
  | _, .flag, _ => True
  | _, .index, _ => True
  | _, .value, _ => True
  | _, .choice _ _, _ => True

def Fields.IsFinite : {ρ σ : Type} → Fields ρ σ → ρ → Prop
  | _, _, .nil, _ => True
  | _, _, .cons _ _ _ schema rest, (a, values) => schema.IsFinite a ∧ rest.IsFinite values

def Variants.IsFinite : {α : Type} → Variants α → α → Prop
  | _, .nil, _ => True
  | _, .cons _ _ fields _ view rest, a =>
    match view a with
    | some values => fields.IsFinite values
    | none => rest.IsFinite a

end

mutual

/--
Whether the innermost parts of the values that are embedded in a document stand in at most `room`
containers, those of the document around them included.
-/
def Schema.EmbedsWithin : {α : Type} → Schema α → (room : Nat) → α → Prop
  | _, .value, room, value => (Node.ofValue value).nesting ≤ room
  | _, .list item, room, items => ∀ a ∈ items, item.EmbedsWithin (room - 1) a
  | _, .table item, room, t => ∀ name a, t.get? name = some a → item.EmbedsWithin (room - 1) a
  | _, .optional item, room, found => ∀ a, found = some a → item.EmbedsWithin room a
  | _, .record _ fields _ view, room, a => fields.EmbedsWithin (room - 1) (view a)
  | _, .tagged _ _ variants, room, a => variants.EmbedsWithin (room - 1) a
  | _, .either _ _ fields _ view, room, a =>
    ∀ values, view a = .inr values → fields.EmbedsWithin (room - 1) values
  | _, .text, _, _ => True
  | _, .flag, _, _ => True
  | _, .real, _, _ => True
  | _, .index, _, _ => True
  | _, .choice _ _, _, _ => True

def Fields.EmbedsWithin : {ρ σ : Type} → Fields ρ σ → (room : Nat) → ρ → Prop
  | _, _, .nil, _, _ => True
  | _, _, .cons _ _ _ schema rest, room, (a, values) =>
    schema.EmbedsWithin room a ∧ rest.EmbedsWithin room values

def Variants.EmbedsWithin : {α : Type} → Variants α → (room : Nat) → α → Prop
  | _, .nil, _, _ => True
  | _, .cons _ _ fields _ view rest, room, a =>
    match view a with
    | some values => fields.EmbedsWithin room values
    | none => rest.EmbedsWithin room a

end

/--
Whether the numbers in the document for a value are what their texts are read as. This is a matter
of the doubles in it: integers always are.
-/
def Schema.ReadsBack {α : Type} (schema : Schema α) (a : α) : Prop :=
  (schema.write a).EachNumber Number.ReadsBack

theorem Schema.ReadsBack.isSpelled {α : Type} {schema : Schema α} {a : α} (h : schema.ReadsBack a) :
    (schema.write a).EachNumber Number.IsSpelled :=
  h.mono fun _ same => same.isSpelled

/--
Whether there can be a text for a value, with `room` for so many containers in each other.
-/
structure Schema.Fits {α : Type} (schema : Schema α) (room : Nat) (a : α) : Prop where
  finite : schema.IsFinite a
  nesting_le : (schema.write a).nesting ≤ room
  spelled : (schema.write a).EachNumber Number.IsSpelled

/--
The values that one of the alternatives is for.
-/
def Variants.Makes : {α : Type} → Variants α → α → Prop
  | _, .nil, _ => False
  | _, .cons _ _ _ make _ rest, a => (∃ values, make values = a) ∨ rest.Makes a

mutual

/--
Whether values are read as they were written by a schema.
-/
def Schema.IsLawful : {α : Type} → Schema α → Prop
  | _, .list item => item.IsLawful
  | _, .table item => item.IsLawful
  -- `null` stands for no value, so no value may be written like that.
  | _, .optional item => item.IsLawful ∧ ∀ a, item.IsFinite a → item.write a ≠ .null
  | _, .choice all name => (∀ a, a ∈ all) ∧ ∀ a b, name a = name b → a = b
  | _, .record _ fields make view =>
    fields.IsLawful ∧ ∀ a values, view a = values ↔ make values = a
  | _, .tagged _ tag variants => variants.IsLawful tag ∧ ∀ a, variants.Makes a
  | _, .either _ ofText fields make view =>
    fields.IsLawful ∧ (∀ a s, view a = .inl s ↔ ofText s = a) ∧
      ∀ a values, view a = .inr values ↔ make values = a
  | _, .text => True
  | _, .flag => True
  | _, .real => True
  | _, .index => True
  | _, .value => True

def Fields.IsLawful : {ρ σ : Type} → Fields ρ σ → Prop
  | _, _, .nil => True
  | _, _, .cons name absent omitted schema rest =>
    schema.IsLawful ∧ rest.IsLawful ∧ (∀ other ∈ name.all, other ∉ rest.names) ∧
      -- What is not written is what its absence stands for, and that can be written anywhere.
      (∀ a, omitted a = true → absent = some a) ∧ ∀ a, absent = some a → schema.Fits schema.height a

def Variants.IsLawful : {α : Type} → Variants α → (tag : String) → Prop
  | _, .nil, _ => True
  | _, .cons name _ fields make view rest, tag =>
    fields.IsLawful ∧ rest.IsLawful tag ∧ tag ∉ fields.names ∧ name ∉ rest.names ∧
      (∀ a values, view a = some values ↔ make values = a) ∧ ∀ a, rest.Makes a → view a = none

end

mutual

/--
A document is nested too deep only if a value is that is embedded in it.
-/
theorem Schema.nesting_write_le_iff {α : Type} (schema : Schema α) (h : schema.IsLawful)
    {room : Nat} (height : schema.height ≤ room) (a : α) :
    (schema.write a).nesting ≤ room ↔ schema.EmbedsWithin room a := by
  match schema, a with
  | .text, _ => exact iff_of_true (Nat.zero_le room) trivial
  | .flag, _ => exact iff_of_true (Nat.zero_le room) trivial
  | .index, _ => exact iff_of_true (Nat.zero_le room) trivial
  | .choice _ _, _ => exact iff_of_true (Nat.zero_le room) trivial
  | .real, x => exact iff_of_true ((Node.nesting_ofFloat x).trans_le (Nat.zero_le room)) trivial
  | .value, _ => exact Iff.rfl
  | .list item, items =>
    obtain ⟨less, rfl⟩ := Nat.exists_eq_add_one.mpr (Nat.zero_lt_of_lt height)
    rw [Schema.write, Node.nesting, Nat.succ_le_succ_iff, Node.nestingItems_le_iff,
      List.forall_mem_map]
    exact forall₂_congr fun a _ => item.nesting_write_le_iff h (Nat.le_of_succ_le_succ height) a
  | .table item, t =>
    obtain ⟨less, rfl⟩ := Nat.exists_eq_add_one.mpr (Nat.zero_lt_of_lt height)
    rw [Schema.write, Node.nesting, Nat.succ_le_succ_iff, Node.nestingMembers_le_iff,
      List.forall_mem_map, Prod.forall]
    simp only [Entries.mem_toList_iff]
    exact forall₃_congr fun name a _ =>
      item.nesting_write_le_iff h (Nat.le_of_succ_le_succ height) a
  | .optional _, none => exact iff_of_true (Nat.zero_le room) (fun _ none => nomatch none)
  | .optional item, some a =>
    refine (item.nesting_write_le_iff h.1 height a).trans ?_
    constructor
    · intro inside b same
      cases same
      exact inside
    · exact fun inside => inside a rfl
  | .record _ fields _ view, a =>
    obtain ⟨less, rfl⟩ := Nat.exists_eq_add_one.mpr (Nat.zero_lt_of_lt height)
    rw [Schema.write, Node.nesting, Nat.succ_le_succ_iff]
    exact fields.nesting_write_le_iff h.1 (Nat.le_of_succ_le_succ height) (view a)
  | .tagged _ tag variants, a =>
    obtain ⟨less, rfl⟩ := Nat.exists_eq_add_one.mpr (Nat.zero_lt_of_lt height)
    rw [Schema.write, Node.nesting, Nat.succ_le_succ_iff]
    exact variants.nesting_write_le_iff h.1 (Nat.le_of_succ_le_succ height) a
  | .either _ _ fields _ view, a =>
    obtain ⟨less, rfl⟩ := Nat.exists_eq_add_one.mpr (Nat.zero_lt_of_lt height)
    rw [Schema.write, Schema.EmbedsWithin]
    cases parts : view a with
    | inl s => exact iff_of_true (Nat.zero_le _) (fun _ other => nomatch other)
    | inr values =>
      have inside := fields.nesting_write_le_iff h.1 (Nat.le_of_succ_le_succ height) values
      rw [Node.nesting, Nat.succ_le_succ_iff, inside]
      simp

theorem Fields.nesting_write_le_iff {ρ σ : Type} (fields : Fields ρ σ) (h : fields.IsLawful)
    {room : Nat} (height : fields.height ≤ room) (values : ρ) :
    Node.nestingMembers (fields.write values) ≤ room ↔ fields.EmbedsWithin room values := by
  match fields, values with
  | .nil, _ => exact iff_of_true (Nat.zero_le room) trivial
  | .cons name absent omitted schema rest, (a, values) =>
    obtain ⟨lawful, others, _, known, fits⟩ := h
    obtain ⟨first, later⟩ := Nat.max_le.mp height
    have one := schema.nesting_write_le_iff lawful first a
    have all := rest.nesting_write_le_iff others later values
    rw [Fields.write, Fields.EmbedsWithin, ← one, ← all]
    cases left : omitted a with
    | false =>
      simp only [Bool.false_eq_true, ↓reduceIte]
      exact Nat.max_le
    | true =>
      -- What is not written is no deeper than the schema of its field.
      have small := Nat.le_trans (fits a (known a left)).nesting_le first
      simp [small]

theorem Variants.nesting_write_le_iff {α : Type} (variants : Variants α) {tag : String}
    (h : variants.IsLawful tag) {room : Nat} (height : variants.height ≤ room) (a : α) :
    Node.nestingMembers (variants.write tag a) ≤ room ↔ variants.EmbedsWithin room a := by
  match variants with
  | .nil => exact iff_of_true (Nat.zero_le room) trivial
  | .cons name _ fields _ view rest =>
    obtain ⟨lawful, others, _, _, _, _⟩ := h
    obtain ⟨first, later⟩ := Nat.max_le.mp height
    rw [Variants.write, Variants.EmbedsWithin]
    cases view a with
    | none => exact rest.nesting_write_le_iff others later a
    | some values =>
      refine (Nat.max_le.trans ?_).trans (fields.nesting_write_le_iff lawful first values)
      exact and_iff_right (Nat.zero_le room)

end

namespace Schema

theorem isLawful_text : text.IsLawful := trivial

theorem isLawful_flag : flag.IsLawful := trivial

theorem isLawful_real : real.IsLawful := trivial

theorem isLawful_index : index.IsLawful := trivial

theorem isLawful_value : value.IsLawful := trivial

theorem isLawful_list {α : Type} {item : Schema α} (h : item.IsLawful) : (list item).IsLawful := h

theorem isLawful_table {α : Type} {item : Schema α} (h : item.IsLawful) : (table item).IsLawful := h

end Schema

namespace Fields

theorem isLawful_nil : nil.IsLawful := trivial

variable {α ρ σ : Type} {name : FieldName} {schema : Schema α} {rest : Fields ρ σ}

theorem isLawful_required (lawful : schema.IsLawful) (others : rest.IsLawful)
    (fresh : ∀ other ∈ name.all, other ∉ rest.names) : (required name schema rest).IsLawful := by
  refine ⟨lawful, others, fresh, ?_, ?_⟩
  · intro a omitted
    cases omitted
  · intro a known
    cases known

theorem isLawful_defaulted {default : α} (lawful : schema.IsLawful) (others : rest.IsLawful)
    (fresh : ∀ other ∈ name.all, other ∉ rest.names) (fits : schema.Fits schema.height default) :
    (defaulted name default schema rest).IsLawful := by
  refine ⟨lawful, others, fresh, ?_, ?_⟩
  · intro a omitted
    cases omitted
  · intro a same
    cases same
    exact fits

theorem isLawful_optional (lawful : schema.IsLawful)
    (some : ∀ a, schema.IsFinite a → schema.write a ≠ .null) (others : rest.IsLawful)
    (fresh : ∀ other ∈ name.all, other ∉ rest.names) : (optional name schema rest).IsLawful := by
  refine ⟨⟨lawful, some⟩, others, fresh, ?_, ?_⟩
  · intro a omitted
    cases a with
    | none => rfl
    | some => cases omitted
  · intro a same
    cases same
    exact ⟨fun _ none => (nomatch none), Nat.zero_le _, Node.eachNumber_null⟩

end Fields

end Stagecraft
