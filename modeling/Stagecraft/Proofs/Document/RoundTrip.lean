import Stagecraft.Proofs.Document.Lawful
import Stagecraft.Proofs.Tracker.Json

/-!
This module contains the reading of what was written by a lawful schema. It is the value that was
written, if there is room for it and the doubles in it are finite and each is what its digits are
read as, which need not be so: the reader does not round exactly.
-/

namespace Stagecraft

mutual

/--
What is written by a schema has no fault in it. A double that is not finite is written as nothing.
-/
theorem Schema.isWhole_write {α : Type} (schema : Schema α) (a : α) : (schema.write a).IsWhole := by
  match schema, a with
  | .text, _ => exact .leaf trivial
  | .flag, _ => exact .leaf trivial
  | .real, x => exact Node.isWhole_ofFloat x
  | .index, _ => exact .leaf trivial
  | .value, value => exact Node.isWhole_ofValue value
  | .choice _ _, _ => exact .leaf trivial
  | .list item, items =>
    refine .array ?_
    rw [List.forall_mem_map]
    exact fun a _ => item.isWhole_write a
  | .table item, t =>
    refine .object ?_ ?_
    · rw [List.forall_mem_map]
      exact fun pair _ => ⟨pair.1, rfl⟩
    · rw [List.forall_mem_map]
      exact fun pair _ => item.isWhole_write pair.2
  | .optional _, none => exact .leaf trivial
  | .optional item, some a => exact item.isWhole_write a
  | .record _ fields _ view, a =>
    have parts := fields.isWhole_write (view a)
    refine .object (fun member mem => ?_) (fun member mem => (parts member mem).2)
    obtain ⟨name, _, same⟩ := (parts member mem).1
    exact ⟨name, same⟩
  | .tagged _ tag variants, a =>
    have parts := variants.isWhole_write tag a
    exact .object (fun member mem => (parts member mem).1) (fun member mem => (parts member mem).2)
  | .either _ _ fields _ view, a =>
    rw [Schema.write]
    split
    · exact .leaf trivial
    next values _ =>
      have parts := fields.isWhole_write values
      refine .object (fun member mem => ?_) (fun member mem => (parts member mem).2)
      obtain ⟨name, _, same⟩ := (parts member mem).1
      exact ⟨name, same⟩

theorem Fields.isWhole_write {ρ σ : Type} (fields : Fields ρ σ) (values : ρ) :
    ∀ member ∈ fields.write values,
      (∃ name ∈ fields.names, member.1 = .text name) ∧ member.2.IsWhole := by
  match fields, values with
  | .nil, _ => exact List.forall_mem_nil _
  | .cons name absent omitted schema rest, (a, values) =>
    have others : ∀ member ∈ rest.write values,
        (∃ other ∈ name.all ++ rest.names, member.1 = .text other) ∧ member.2.IsWhole := by
      intro member mem
      obtain ⟨⟨other, known, same⟩, whole⟩ := rest.isWhole_write values member mem
      exact ⟨⟨other, List.mem_append_right _ known, same⟩, whole⟩
    rw [Fields.write]
    split
    · exact others
    · refine List.forall_mem_cons.mpr ⟨⟨⟨name.main, ?_, rfl⟩, schema.isWhole_write a⟩, others⟩
      exact List.mem_append_left _ List.mem_cons_self

theorem Variants.isWhole_write {α : Type} (variants : Variants α) (tag : String) (a : α) :
    ∀ member ∈ variants.write tag a, (∃ name, member.1 = .text name) ∧ member.2.IsWhole := by
  match variants with
  | .nil => exact List.forall_mem_nil _
  | .cons name _ fields _ view rest =>
    rw [Variants.write]
    split
    next values _ =>
      refine List.forall_mem_cons.mpr ⟨⟨⟨tag, rfl⟩, .leaf trivial⟩, ?_⟩
      intro member mem
      obtain ⟨⟨name, _, same⟩, whole⟩ := fields.isWhole_write values member mem
      exact ⟨⟨name, same⟩, whole⟩
    · exact rest.isWhole_write tag a

end

theorem acceptAll_cons {σ : Type} {accept : String → Node → σ → Except Fault (Option σ)}
    {name : String} {value : Node} {found more : σ} (h : accept name value found = .ok (some more))
    (rest : List (Node × Node)) :
    acceptAll accept ((.text name, value) :: rest) found = acceptAll accept rest more := by
  simp only [acceptAll, Node.name, bind, Except.bind, h]

namespace Fields

variable {α ρ σ : Type} {source : Source}

/--
The values of fields that are found in the members of an object, beside those found before.
-/
abbrev collect (fields : Fields ρ σ) (source : Source) (members : List (Node × Node)) (found : σ) :
    Except Fault σ :=
  acceptAll (fun name value found => fields.accept source name value found) members found

/--
The values that are found where `values` were written.
-/
def found : {ρ σ : Type} → Fields ρ σ → ρ → σ
  | _, _, .nil, _ => ()
  | _, _, .cons _ _ omitted _ rest, (a, values) =>
    (if omitted a then none else some a, rest.found values)

theorem finish_found {ρ σ : Type} (fields : Fields ρ σ) (h : fields.IsLawful) (values : ρ) :
    fields.finish (fields.found values) = .ok values := by
  match fields, values with
  | .nil, _ => rfl
  | .cons _ _ omitted _ rest, (a, values) =>
    obtain ⟨_, others, _, known, _⟩ := h
    rw [finish, found, rest.finish_found others values]
    cases left : omitted a with
    | true =>
      rw [known a left]
      rfl
    | false => rfl

/--
Members that are for the other fields go to those.
-/
theorem collect_cons {name : FieldName} {absent : Option α} {omitted : α → Bool}
    {schema : Schema α} {rest : Fields ρ σ} (fresh : ∀ other ∈ name.all, other ∉ rest.names)
    {members : List (Node × Node)}
    (keys : ∀ member ∈ members, ∃ other ∈ rest.names, member.1 = .text other) (slot : Option α)
    (others : σ) :
    (cons name absent omitted schema rest).collect source members (slot, others) =
      (slot, ·) <$> rest.collect source members others := by
  induction members generalizing others with
  | nil => rfl
  | cons member tail ih =>
    obtain ⟨key, value⟩ := member
    obtain ⟨⟨other, known, same⟩, tailKeys⟩ := List.forall_mem_cons.mp keys
    dsimp only at same
    subst same
    have skipped : ¬(other = name.main ∨ other ∈ name.aliases) := by
      intro own
      exact fresh other (List.mem_cons.mpr own) known
    unfold collect at ih ⊢
    rw [acceptAll, acceptAll, Node.name]
    simp only [bind, Except.bind, accept, if_neg skipped]
    cases rest.accept source other value others with
    | error => rfl
    | ok taken =>
      cases taken with
      | some others => exact ih tailKeys others
      | none =>
        cases value.skipFault with
        | some => rfl
        | none => exact ih tailKeys others

theorem exists_mem_names_of_mem_write {fields : Fields ρ σ} {values : ρ} {member : Node × Node}
    (mem : member ∈ fields.write values) : ∃ name ∈ fields.names, member.1 = .text name :=
  (fields.isWhole_write values member mem).1

end Fields

section Parts

variable {α : Type} {source : Source}

theorem Node.toIndex_ofIndex (n : UInt64) : (Node.number (.ofIndex n)).toIndex = .ok n := by
  have sign : ¬(n.toNat : Int) < 0 := Int.not_lt.mpr (Int.natCast_nonneg _)
  simp [toIndex, Number.ofIndex, sign]

theorem check_endFault_true (span : Span) : check (endFault true span) = .ok () := rfl

theorem chosen_name {all : List α} {name : α → String} (distinct : ∀ a b, name a = name b → a = b)
    {a : α} (mem : a ∈ all) : chosen all name (name a) = .ok a := by
  have found : all.find? (fun b => name b = name a) = some a := by
    cases result : all.find? (fun b => name b = name a) with
    | none => simpa using List.find?_eq_none.mp result a mem
    | some b =>
      have same := List.find?_some result
      rw [distinct b a (of_decide_eq_true same)]
  unfold chosen
  rw [found]

theorem mapM_write {f : Node → Except Fault α} {write : α → Node} {items : List α}
    (h : ∀ a ∈ items, f (write a) = .ok a) : (items.map write).mapM f = .ok items := by
  induction items with
  | nil => rfl
  | cons a rest ih =>
    obtain ⟨first, others⟩ := List.forall_mem_cons.mp h
    rw [List.map_cons, List.mapM_cons, first, ih others]
    rfl

theorem foldlM_write {f : Node → Except Fault α} {write : α → Node}
    {pairs : List (String × α)} (h : ∀ pair ∈ pairs, f (write pair.2) = .ok pair.2)
    (before : Table α) :
    (pairs.map fun (name, a) => (Node.text name, write a)).foldlM (fun before (key, value) => do
        let name ← key.name
        return Table.insert before name (← f value)) before =
      .ok (pairs.foldl (fun t pair => t.insert pair.1 pair.2) before) := by
  induction pairs generalizing before with
  | nil => rfl
  | cons pair rest ih =>
    obtain ⟨name, a⟩ := pair
    obtain ⟨first, others⟩ := List.forall_mem_cons.mp h
    dsimp only at first
    rw [List.map_cons, List.foldlM_cons]
    simp only [Node.name, bind, Except.bind, first]
    exact ih others (before.insert name a)

theorem Schema.read_optional {item : Schema α} {node : Node} (some : node ≠ .null) :
    (Schema.optional item).read source node = Option.some <$> item.read source node := by
  rw [Schema.read]
  exact some

/--
The tag that stands before the other members is found, if no other member is called like it and
all of them are values.
-/
theorem splitTag_write {tag name : String} {names : List String} {members : List (Node × Node)}
    (known : name ∈ names)
    (keys : ∀ member ∈ members, ∃ other, other ≠ tag ∧ member.1 = .text other)
    (values : ∀ member ∈ members, ∃ value, member.2.toValue source = .ok value) :
    splitTag tag names source ((.text tag, .text name) :: members) none =
      .ok (some name, members) := by
  have others : splitTag tag names source members (some name) = .ok (some name, members) := by
    induction members with
    | nil => rfl
    | cons member rest ih =>
      obtain ⟨key, node⟩ := member
      obtain ⟨⟨other, ne, same⟩, restKeys⟩ := List.forall_mem_cons.mp keys
      obtain ⟨⟨value, read⟩, restValues⟩ := List.forall_mem_cons.mp values
      dsimp only at same read
      subst same
      rw [splitTag, Node.name, read]
      simp only [bind, Except.bind, if_neg ne]
      rw [ih restKeys restValues]
      rfl
  have chosen : chosen names id name = .ok name := chosen_name (fun _ _ same => same) known
  rw [splitTag, Node.name]
  simp only [bind, Except.bind, Node.identifier, ↓reduceIte, chosen]
  exact others

end Parts

mutual

/--
A value is read as it was written, if the doubles in it are finite and it is not nested too deep.
-/
theorem Schema.read_write {α : Type} (schema : Schema α) (h : schema.IsLawful) {a : α}
    {source : Source} (finite : schema.IsFinite a)
    (room : source.Allows (schema.write a).nesting) :
    schema.read source (schema.write a) = .ok a := by
  match schema, a with
  | .text, _ => rfl
  | .flag, _ => rfl
  | .real, _ =>
    rw [Schema.write, Node.ofFloat_of_isFinite finite]
    rfl
  | .index, a => exact Node.toIndex_ofIndex a
  | .value, a => exact Node.toValue_ofValue a room
  | .list item, a =>
    obtain ⟨inner, entered, room⟩ := room.exists_enter
    rw [Schema.write, Schema.read, bind_of_eq_ok entered, bind_of_eq_ok (mapM_write _)]
    · rfl
    · intro part mem
      apply item.read_write h (finite part mem)
      exact Node.allows_item room (List.mem_map_of_mem mem)
  | .table item, a =>
    obtain ⟨inner, entered, room⟩ := room.exists_enter
    rw [Schema.write, Schema.read, bind_of_eq_ok entered]
    refine (bind_of_eq_ok (foldlM_write ?_ _)).trans ?_
    · intro pair mem
      apply item.read_write h (finite pair.1 pair.2 (Entries.mem_toList_iff.mp mem))
      exact Node.allows_member room (List.mem_map_of_mem mem)
    · exact congrArg Except.ok (Table.ofList_toList a)
  | .optional item, none => rfl
  | .optional item, some a =>
    obtain ⟨lawful, written⟩ := h
    have finite := finite a rfl
    rw [Schema.write, Schema.read_optional (written a finite), item.read_write lawful finite room]
    rfl
  | .choice all name, a =>
    obtain ⟨complete, distinct⟩ := h
    apply chosen_name distinct (complete a)
  | .record type fields make view, a =>
    obtain ⟨lawful, view_iff⟩ := h
    obtain ⟨inner, entered, room⟩ := room.exists_enter
    rw [Schema.write, Schema.read, bind_of_eq_ok entered,
      bind_of_eq_ok (fields.collect_write lawful finite room),
      bind_of_eq_ok (check_endFault_true _), bind_of_eq_ok (fields.finish_found lawful _),
      (view_iff a _).mp rfl]
    rfl
  | .tagged type tag variants, a =>
    obtain ⟨lawful, complete⟩ := h
    obtain ⟨inner, entered, room⟩ := room.exists_enter
    obtain ⟨name, members, written, known, keys, read⟩ :=
      variants.readObject_write lawful (complete a) finite
    rw [Schema.write, Schema.read, bind_of_eq_ok entered, written,
      bind_of_eq_ok (splitTag_write known keys _)]
    · exact read
    · intro member mem
      have mem : member ∈ Variants.write _ _ a := written ▸ List.mem_cons_of_mem _ mem
      apply (Variants.isWhole_write _ _ a member mem).2.exists_toValue
      exact Node.allows_member room mem
  | .either type ofText fields make view, a =>
    obtain ⟨lawful, text_iff, view_iff⟩ := h
    have whole := (Schema.either type ofText fields make view).isWhole_write a
    cases parts : view a with
    | inl s =>
      have written : (Schema.either type ofText fields make view).write a = .text s := by
        rw [Schema.write, parts]
      rw [written]
      exact congrArg Except.ok ((text_iff a s).mp parts)
    | inr values =>
      have written : (Schema.either type ofText fields make view).write a =
          .object (fields.write values) true := by
        rw [Schema.write, parts]
      rw [written] at whole room ⊢
      obtain ⟨value, known⟩ := whole.exists_toValue room
      have read : fields.collect .buffer (fields.write values) fields.blank =
          .ok (fields.found values) := fields.collect_write lawful (finite values parts) trivial
      rw [Schema.read, known]
      apply (bind_of_eq_ok rfl).trans
      dsimp only
      rw [bind_of_eq_ok read, fields.finish_found lawful]
      exact congrArg Except.ok ((view_iff a values).mp parts)

theorem Fields.collect_write {ρ σ : Type} (fields : Fields ρ σ) (h : fields.IsLawful)
    {values : ρ} {source : Source} (finite : fields.IsFinite values)
    (room : source.Allows (Node.nestingMembers (fields.write values))) :
    fields.collect source (fields.write values) fields.blank = .ok (fields.found values) := by
  match fields, values with
  | .nil, _ => rfl
  | .cons name absent omitted schema rest, (a, values) =>
    obtain ⟨lawful, others, fresh, _, _⟩ := h
    have keys (member : Node × Node) (mem : member ∈ rest.write values) :=
      Fields.exists_mem_names_of_mem_write mem
    rw [Fields.write] at room ⊢
    rw [Fields.found, Fields.blank]
    cases left : omitted a with
    | true =>
      simp only [left, ↓reduceIte] at room ⊢
      rw [Fields.collect_cons fresh keys, rest.collect_write others finite.2 room]
      rfl
    | false =>
      simp only [left, Bool.false_eq_true, ↓reduceIte] at room ⊢
      have first : schema.read source (schema.write a) = .ok a :=
        schema.read_write lawful finite.1 (room.mono (Nat.le_max_left _ _))
      have accepted : (Fields.cons name absent omitted schema rest).accept source name.main
          (schema.write a) (none, rest.blank) = .ok (some (some a, rest.blank)) := by
        rw [Fields.accept, if_pos (.inl rfl), if_neg Bool.noConfusion, bind_of_eq_ok first]
        rfl
      apply (acceptAll_cons accepted _).trans
      apply (Fields.collect_cons fresh keys (some a) rest.blank).trans
      rw [rest.collect_write others finite.2 (room.mono (Nat.le_max_right _ _))]
      rfl

theorem Variants.readObject_write {α : Type} (variants : Variants α) {tag : String}
    (h : variants.IsLawful tag) {a : α} (made : variants.Makes a) (finite : variants.IsFinite a) :
    ∃ name members, variants.write tag a = (.text tag, .text name) :: members ∧
      name ∈ variants.names ∧
      (∀ member ∈ members, ∃ other, other ≠ tag ∧ member.1 = .text other) ∧
      variants.readObject name members = .ok a := by
  match variants with
  | .nil => cases made
  | .cons name _ fields make view rest =>
    obtain ⟨lawful, others, untagged, fresh, view_iff, _⟩ := h
    rw [Variants.write]
    unfold Variants.IsFinite at finite
    cases parts : view a with
    | some values =>
      rw [parts] at finite
      refine ⟨name, fields.write values, rfl, List.mem_cons_self, ?_, ?_⟩
      · intro member mem
        obtain ⟨other, known, same⟩ := Fields.exists_mem_names_of_mem_write mem
        exact ⟨other, fun eq => untagged (eq ▸ known), same⟩
      · have read : fields.collect .buffer (fields.write values) fields.blank =
            .ok (fields.found values) := fields.collect_write lawful finite trivial
        rw [Variants.readObject, if_pos rfl, bind_of_eq_ok read,
          bind_of_eq_ok (fields.finish_found lawful _), (view_iff a values).mp parts]
        rfl
    | none =>
      rw [parts] at finite
      have made : rest.Makes a := by
        rcases made with ⟨values, same⟩ | made
        · rw [(view_iff a values).mpr same] at parts
          cases parts
        · exact made
      obtain ⟨other, members, written, known, keys, read⟩ :=
        rest.readObject_write others made finite
      have ne : ¬other = name := fun eq => fresh (eq ▸ known)
      refine ⟨other, members, written, List.mem_cons_of_mem _ known, keys, ?_⟩
      rw [Variants.readObject, if_neg ne, read]

end

namespace Schema

variable {α : Type} {schema : Schema α} {a : α}

theorem decode_eq_ok_iff {root : Node} {text : String} {trailing : Bool}
    (parsed : Node.ofText text = (root, trailing)) :
    schema.decode text = .ok a ↔
      schema.read (.text Source.limit) root = .ok a ∧ trailing = false := by
  unfold decode
  rw [parsed]
  dsimp only
  cases schema.read (.text Source.limit) root with
  | error => simp [bind, Except.bind]
  | ok =>
    cases trailing with
    | false => simp [bind, Except.bind, pure, Except.pure]
    | true => simp [bind, Except.bind]

theorem ReadsBack.reread_write (h : schema.ReadsBack a) :
    (schema.write a).reread = schema.write a :=
  (schema.isWhole_write a).reread_eq h

/--
A value that there can be a text for is read from its text as it was, on one line or on many, if
this holds of the doubles in it.
-/
theorem Fits.decode_encode (h : schema.Fits Source.limit a) (lawful : schema.IsLawful)
    (same : schema.ReadsBack a) (spacing : Spacing) :
    schema.decode (schema.encode a spacing) = .ok a := by
  rw [Schema.decode_encode (schema.isWhole_write a) spacing, same.reread_write]
  apply schema.read_write lawful h.finite
  exact h.nesting_le

/--
There is a text for a value that there can be one for.
-/
theorem Fits.exists_decode (h : schema.Fits Source.limit a) (lawful : schema.IsLawful) :
    ∃ text, schema.decode text = .ok a := by
  obtain ⟨text, parsed⟩ := (schema.isWhole_write a).exists_ofText_eq h.spelled
  refine ⟨text, (decode_eq_ok_iff parsed).mpr ⟨?_, rfl⟩⟩
  apply schema.read_write lawful h.finite
  exact h.nesting_le

end Schema

end Stagecraft
