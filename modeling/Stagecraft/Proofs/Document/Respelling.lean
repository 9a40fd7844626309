import Mathlib.Logic.Relation
import Stagecraft.Proofs.Document.Kinds
import Stagecraft.Proofs.Document.Places

/-!
This module contains how a document can be written differently without meaning anything else. In
every record in it the members may be reordered, members of no use added, those with default values
left out, and fields called by their other names. A field must not occur twice, while of the members
of a table with one name the last one counts.
-/

namespace Stagecraft

namespace FieldName

variable {name : FieldName} {key : String} {before after pairs others : List (String × Node)}

theorem nodes_append (name : FieldName) (before after : List (String × Node)) :
    name.nodes (before ++ after) = name.nodes before ++ name.nodes after := by
  simp [nodes]

theorem nodes_perm (name : FieldName) (h : pairs.Perm others) :
    (name.nodes pairs).Perm (name.nodes others) :=
  (h.filter _).map _

theorem nodes_insert_of_not_mem (foreign : key ∉ name.all) (node : Node)
    (before after : List (String × Node)) :
    name.nodes (before ++ (key, node) :: after) = name.nodes (before ++ after) := by
  rw [nodes_append, nodes_cons_of_not_mem foreign, nodes_append]

theorem nodes_insert_of_mem (own : key ∈ name.all) (node : Node)
    (before after : List (String × Node)) :
    name.nodes (before ++ (key, node) :: after) =
      name.nodes before ++ node :: name.nodes after := by
  rw [nodes_append, nodes_cons_of_mem own]

end FieldName

namespace Fields

variable {ρ σ : Type} {fields : Fields ρ σ} {source next inner : Source} {values : ρ}
  {pairs others : List (String × Node)} {field : Field} {key : String}

/--
No two fields answer to one name.
-/
theorem IsLawful.eq_of_mem {ρ σ : Type} {fields : Fields ρ σ} (lawful : fields.IsLawful)
    {other : Field} (mem : field ∈ fields.all) (mem' : other ∈ fields.all)
    (own : key ∈ field.name.all) (own' : key ∈ other.name.all) : field = other := by
  match fields with
  | .nil => cases mem
  | .cons name _ _ _ rest =>
    obtain ⟨_, lawful, fresh, _⟩ := lawful
    obtain rfl | mem := List.mem_cons.mp mem
    · obtain rfl | mem' := List.mem_cons.mp mem'
      · rfl
      · exact absurd (mem_names_of_mem_all mem' own') (fresh key own)
    · obtain rfl | mem' := List.mem_cons.mp mem'
      · exact absurd (mem_names_of_mem_all mem own) (fresh key own')
      · exact lawful.eq_of_mem mem mem' own own'

/--
Other members hold the same values if each field finds the same among them, or finds nothing where
it found what it stands for.
-/
theorem Holds.of_nodes {ρ σ : Type} {fields : Fields ρ σ} {values : ρ}
    (held : fields.Holds source pairs values)
    (h : ∀ field ∈ fields.all, (field.name.nodes others).Perm (field.name.nodes pairs) ∨
      ∃ before node after a, field.name.nodes pairs = before ++ node :: after ∧
        field.name.nodes others = before ++ after ∧ field.schema.read source node = .ok a ∧
        field.absent = some a) : fields.Holds source others values := by
  match fields, values with
  | .nil, _ => trivial
  | .cons name absent _ schema rest, (a, values) =>
    obtain ⟨first, later⟩ := held
    obtain ⟨one, all⟩ := List.forall_mem_cons.mp h
    refine ⟨?_, later.of_nodes all⟩
    obtain perm | ⟨before, node, after, b, found, left, read, default⟩ := one
    · obtain ⟨empty, given⟩ | ⟨node, only, read⟩ := first
      · rw [empty] at perm
        exact .inl ⟨perm.eq_nil, given⟩
      · rw [only] at perm
        exact .inr ⟨node, List.perm_singleton.mp perm, read⟩
    · dsimp only at found left read default
      obtain ⟨empty, _⟩ | ⟨only, single, known⟩ := first
      · rw [empty] at found
        exact absurd found.symm (List.append_ne_nil_of_right_ne_nil _ (List.cons_ne_nil _ _))
      · -- The member that was left out is the only one that there was.
        rw [found] at single
        cases before with
        | nil =>
          obtain ⟨rfl, rfl⟩ := List.cons.inj single
          rw [read] at known
          cases known
          exact .inl ⟨left, default.symm⟩
        | cons _ before =>
          have empty := (List.cons.inj single).2
          exact absurd empty (List.append_ne_nil_of_right_ne_nil _ (List.cons_ne_nil _ _))

theorem Holds.length_nodes_le_one {ρ σ : Type} {fields : Fields ρ σ} {values : ρ}
    (held : fields.Holds source pairs values) (mem : field ∈ fields.all) :
    (field.name.nodes pairs).length ≤ 1 := by
  match fields, values with
  | .nil, _ => cases mem
  | .cons name _ _ _ rest, (_, values) =>
    obtain ⟨first, later⟩ := held
    obtain rfl | mem := List.mem_cons.mp mem
    · obtain ⟨empty, _⟩ | ⟨node, only, _⟩ := first
      · exact (congrArg List.length empty).trans_le (Nat.zero_le 1)
      · exact (congrArg List.length only).le
    · exact later.length_nodes_le_one mem

/--
The ways to write the members of a record differently. What stands in them comes from `next`, and
the values of fields are read from `inner`.
-/
inductive Respells (fields : Fields ρ σ) (next inner : Source) :
    List (String × Node) → List (String × Node) → Prop where
  | reordered {pairs others : List (String × Node)} (h : pairs.Perm others) :
    Respells fields next inner pairs others
  | added {key : String} (foreign : key ∉ fields.names) {node : Node} (whole : node.IsWhole)
    (room : next.Allows node.nesting) (before after : List (String × Node)) :
    Respells fields next inner (before ++ after) (before ++ (key, node) :: after)
  | omitted {field : Field} (mem : field ∈ fields.all) {key : String} (own : key ∈ field.name.all)
    {node : Node} {a : field.Result} (read : field.schema.read inner node = .ok a)
    (default : field.absent = some a) (before after : List (String × Node)) :
    Respells fields next inner (before ++ (key, node) :: after) (before ++ after)
  | renamed {field : Field} (mem : field ∈ fields.all) {key other : String}
    (own : key ∈ field.name.all) (own' : other ∈ field.name.all) (node : Node)
    (before after : List (String × Node)) :
    Respells fields next inner (before ++ (key, node) :: after) (before ++ (other, node) :: after)

theorem Respells.holds (respelled : fields.Respells next inner pairs others)
    (lawful : fields.IsLawful) (held : fields.Holds inner pairs values) :
    fields.Holds inner others values := by
  refine held.of_nodes fun found found_mem => ?_
  cases respelled with
  | reordered perm => exact .inl (found.name.nodes_perm perm.symm)
  | added foreign _ _ before after =>
    left
    rw [FieldName.nodes_insert_of_not_mem (mt (mem_names_of_mem_all found_mem) foreign)]
  | @omitted field mem key own node a read default before after =>
    by_cases also : key ∈ found.name.all
    · cases lawful.eq_of_mem mem found_mem own also
      refine .inr ⟨_, node, _, a, ?_, found.name.nodes_append before after, read, default⟩
      exact FieldName.nodes_insert_of_mem own node before after
    · left
      rw [FieldName.nodes_insert_of_not_mem also]
  | @renamed field mem key other own own' node before after =>
    left
    by_cases also : key ∈ found.name.all
    · cases lawful.eq_of_mem mem found_mem own also
      rw [FieldName.nodes_insert_of_mem own, FieldName.nodes_insert_of_mem own']
    · have neither : other ∉ found.name.all := by
        intro also'
        cases lawful.eq_of_mem mem found_mem own' also'
        exact also own
      rw [FieldName.nodes_insert_of_not_mem also, FieldName.nodes_insert_of_not_mem neither]

/--
What holds of all members does so when they are written differently, if it holds of all members that
may be added, and is no matter of which name of a field is taken.
-/
theorem Respells.forall_mem {p : String × Node → Prop}
    (respelled : fields.Respells next inner pairs others)
    (added : ∀ key node, key ∉ fields.names → node.IsWhole → next.Allows node.nesting →
      p (key, node))
    (renamed : ∀ key other node, key ∈ fields.names → other ∈ fields.names → p (key, node) →
      p (other, node))
    (h : ∀ pair ∈ pairs, p pair) : ∀ pair ∈ others, p pair := by
  cases respelled with
  | reordered perm => exact fun pair mem => h pair (perm.mem_iff.mpr mem)
  | added foreign whole room before after =>
    rw [List.forall_mem_append] at h
    rw [List.forall_mem_append, List.forall_mem_cons]
    exact ⟨h.1, added _ _ foreign whole room, h.2⟩
  | omitted _ _ _ _ before after =>
    rw [List.forall_mem_append, List.forall_mem_cons] at h
    rw [List.forall_mem_append]
    exact ⟨h.1, h.2.2⟩
  | renamed mem own own' node before after =>
    rw [List.forall_mem_append, List.forall_mem_cons] at h ⊢
    refine ⟨h.1, renamed _ _ _ ?_ ?_ h.2.1, h.2.2⟩
    · exact mem_names_of_mem_all mem own
    · exact mem_names_of_mem_all mem own'

end Fields

namespace Schema

variable {α β ρ σ : Type} {schema : Schema α} {part : Schema β} {fields : Fields ρ σ}
  {source inner next kept : Source}

/--
Whether objects from `source` are read as records with some fields: what stands in them comes from
`next`, and the values of the fields are read from `inner`.
-/
inductive Records : {α ρ σ : Type} → Schema α → Fields ρ σ → (source next inner : Source) → Prop
    where
  | record {α ρ σ : Type} {type : String} {fields : Fields ρ σ} {make : ρ → α} {view : α → ρ}
    {source next : Source} (entered : source.enter = .ok next) :
    Records (record type fields make view) fields source next next
  | either {α ρ σ : Type} {type : String} {ofText : String → α} {fields : Fields ρ σ}
    {make : ρ → α} {view : α → String ⊕ ρ} {source next : Source}
    (entered : source.enter = .ok next) :
    Records (either type ofText fields make view) fields source next .buffer

theorem Records.read_of_respells {pairs others : List (String × Node)} {a : α}
    (h : schema.Records fields source next inner) (lawful : schema.IsLawful)
    (respelled : fields.Respells next inner pairs others)
    (known : schema.read source (.object (Fields.named pairs) true) = .ok a) :
    schema.read source (.object (Fields.named others) true) = .ok a := by
  cases h with
  | record entered =>
    rw [read_record_eq_ok_iff lawful.1 entered] at known ⊢
    obtain ⟨passed, values, held, made⟩ := known
    refine ⟨respelled.forall_mem ?_ ?_ passed, values, respelled.holds lawful.1 held, made⟩
    · exact fun _ _ _ whole _ _ => whole.skipFault_eq_none
    · exact fun _ _ _ _ known _ foreign => absurd known foreign
  | either entered =>
    rw [read_either_eq_ok_iff lawful.1 entered] at known ⊢
    obtain ⟨passed, values, held, made⟩ := known
    refine ⟨respelled.forall_mem ?_ ?_ passed, values, respelled.holds lawful.1 held, made⟩
    · exact fun _ _ _ whole room => ⟨whole, room⟩
    · exact fun _ _ _ _ _ passed => passed

theorem Records.exists_holds {members : List (Node × Node)} {a : α}
    (h : schema.Records fields source next inner) (lawful : schema.IsLawful)
    (known : schema.read source (.object members true) = .ok a) :
    ∃ pairs values, members = Fields.named pairs ∧ fields.Holds inner pairs values := by
  cases h with
  | record entered =>
    have whole := known
    rw [read, bind_of_eq_ok entered] at known
    obtain ⟨found, collected, _⟩ := exists_of_bind_eq_ok known
    obtain ⟨pairs, rfl⟩ := Fields.exists_eq_named collected
    obtain ⟨_, values, held, _⟩ := (read_record_eq_ok_iff lawful.1 entered).mp whole
    exact ⟨pairs, values, rfl, held⟩
  | either entered =>
    have whole := known
    rw [read] at known
    obtain ⟨_, _, known⟩ := exists_of_bind_eq_ok known
    dsimp only at known
    split at known
    next values parts =>
      obtain ⟨found, collected, _⟩ := exists_of_bind_eq_ok parts
      obtain ⟨pairs, rfl⟩ := Fields.exists_eq_named collected
      obtain ⟨_, values, held, _⟩ := (read_either_eq_ok_iff lawful.1 entered).mp whole
      exact ⟨pairs, values, rfl, held⟩
    next => cases known

/--
An object in which a field occurs twice is not read, be it under one name or under two.
-/
theorem Records.read_ne_ok {field : Field} {key other : String} {node twin : Node} {a : α}
    (h : schema.Records fields source next inner) (lawful : schema.IsLawful)
    (mem : field ∈ fields.all) (own : key ∈ field.name.all) (own' : other ∈ field.name.all)
    (before middle after : List (Node × Node)) :
    schema.read source (.object (before ++ (.text key, node) :: (middle ++ (.text other, twin) ::
      after)) true) ≠ .ok a := by
  intro known
  obtain ⟨pairs, values, same, held⟩ := h.exists_holds lawful known
  obtain ⟨_, _, rfl, _, first⟩ := List.map_eq_append_iff.mp same.symm
  obtain ⟨⟨_, _⟩, _, rfl, ⟨⟩, between⟩ := List.map_eq_cons_iff.mp first
  obtain ⟨_, _, rfl, _, second⟩ := List.map_eq_append_iff.mp between
  obtain ⟨⟨_, _⟩, _, rfl, ⟨⟩, _⟩ := List.map_eq_cons_iff.mp second
  have short := held.length_nodes_le_one mem
  rw [FieldName.nodes_insert_of_mem own, FieldName.nodes_insert_of_mem own'] at short
  simp only [List.length_append, List.length_cons] at short
  omega

section Tables

variable {item : Schema α} {key : String} {old last : Node}

/--
A table with one more member of an object.
-/
def put (item : Schema α) (source : Source) (before : Table α) (member : Node × Node) :
    Except Fault (Table α) := do
  let name ← member.1.name
  return before.insert name (← item.read source member.2)

theorem put_text (item : Schema α) (source : Source) (before : Table α) (key : String)
    (node : Node) :
    item.put source before (.text key, node) = before.insert key <$> item.read source node := by
  rw [put, Node.name, map_eq_pure_bind]
  rfl

theorem read_table_object (entered : source.enter = .ok next) (members : List (Node × Node)) :
    (table item).read source (.object members true) = members.foldlM (item.put next) .empty := by
  rw [read, bind_of_eq_ok entered]
  exact bind_pure _

/--
An entry makes no difference to a table that gets another one with its name later.
-/
theorem foldlM_put_insert (key : String) (old : α) (last : Node) (middle after : List (Node × Node))
    (before : Table α) :
    (middle ++ (.text key, last) :: after).foldlM (item.put next) (before.insert key old) =
      (middle ++ (.text key, last) :: after).foldlM (item.put next) before := by
  induction middle generalizing before with
  | nil =>
    rw [List.nil_append, List.foldlM_cons, List.foldlM_cons, put_text, put_text]
    simp only [funext fun a => before.insert_insert key old a]
  | cons member rest ih =>
    obtain ⟨name, node⟩ := member
    rw [List.cons_append, List.foldlM_cons, List.foldlM_cons, put, put]
    cases name.name with
    | error => rfl
    | ok name =>
      cases item.read next node with
      | error => rfl
      | ok a =>
        dsimp only [bind, Except.bind, pure, Except.pure]
        by_cases same : key = name
        · rw [same, Table.insert_insert]
        · rw [Table.insert_comm before same]
          exact ih (before.insert name a)

/--
Of two members of a table with one name only the last one counts, though both are read.
-/
theorem read_table_eq_ok_iff (entered : source.enter = .ok next)
    (before middle after : List (Node × Node)) {t : Table α} :
    (table item).read source (.object (before ++ (.text key, old) :: (middle ++ (.text key, last) ::
        after)) true) = .ok t ↔
      (∃ a, item.read next old = .ok a) ∧
        (table item).read source (.object (before ++ (middle ++ (.text key, last) :: after)) true) =
          .ok t := by
  rw [read_table_object entered, read_table_object entered, List.foldlM_append,
    List.foldlM_append]
  cases before.foldlM (item.put next) .empty with
  | error => exact iff_of_false nofun fun h => nomatch h.2
  | ok found =>
    dsimp only [bind, Except.bind]
    rw [List.foldlM_cons, put_text]
    cases item.read next old with
    | error => exact iff_of_false nofun fun h => nomatch h.1.choose_spec
    | ok a =>
      rw [and_iff_right ⟨a, rfl⟩, ← foldlM_put_insert key a]
      rfl

end Tables

/--
Two documents with the same objects in them but for one that is read as a record, the members of
which are written differently.
-/
inductive Respells (schema : Schema α) (source : Source) : Node → Node → Prop where
  | intro {β ρ σ : Type} {part : Schema β} {fields : Fields ρ σ} {inner next kept : Source}
    {around : List (Node × Node) → Node} {pairs others : List (String × Node)}
    (place : Place part inner schema source around) (records : part.Records fields inner next kept)
    (respelled : fields.Respells next kept pairs others) :
    Respells schema source (around (Fields.named pairs)) (around (Fields.named others))

/--
A document with an object in it that is read as a record and in which a field occurs twice.
-/
inductive Doubles (schema : Schema α) (source : Source) : Node → Prop where
  | intro {β ρ σ : Type} {part : Schema β} {fields : Fields ρ σ} {inner next kept : Source}
    {around : List (Node × Node) → Node} {field : Field} {key other : String}
    (place : Place part inner schema source around) (records : part.Records fields inner next kept)
    (mem : field ∈ fields.all) (own : key ∈ field.name.all) (own' : other ∈ field.name.all)
    (before : List (Node × Node)) (node : Node) (middle : List (Node × Node)) (twin : Node)
    (after : List (Node × Node)) :
    Doubles schema source
      (around (before ++ (.text key, node) :: (middle ++ (.text other, twin) :: after)))

section Documents

variable {root root' : Node} {a : α}

theorem Respells.read_eq_ok (h : schema.Respells source root root') (lawful : schema.IsLawful)
    (known : schema.read source root = .ok a) : schema.read source root' = .ok a := by
  obtain ⟨place, records, respelled⟩ := h
  obtain ⟨b, part, same⟩ := place.readsThrough lawful _ a known
  exact same _ (records.read_of_respells (place.isLawful lawful) respelled part)

/--
A document is read as the same value however many of the records in it are written differently.
-/
theorem read_eq_ok_of_respells (h : Relation.ReflTransGen (schema.Respells source) root root')
    (lawful : schema.IsLawful) (known : schema.read source root = .ok a) :
    schema.read source root' = .ok a := by
  induction h with
  | refl => exact known
  | tail _ step ih => exact step.read_eq_ok lawful ih

theorem Doubles.read_ne_ok (h : schema.Doubles source root) (lawful : schema.IsLawful) :
    schema.read source root ≠ .ok a := by
  obtain ⟨place, records, mem, own, own', before, node, middle, twin, after⟩ := h
  intro known
  obtain ⟨b, part, _⟩ := place.readsThrough lawful _ a known
  exact records.read_ne_ok (place.isLawful lawful) mem own own' before middle after part

theorem Place.read_table_eq_ok_iff {item : Schema β} {around : List (Node × Node) → Node}
    {key : String} {old last : Node} (place : Place (table item) inner schema source around)
    (lawful : schema.IsLawful) (entered : inner.enter = .ok next)
    (before middle after : List (Node × Node)) :
    schema.read source (around (before ++ (.text key, old) :: (middle ++ (.text key, last) ::
        after))) = .ok a ↔
      (∃ b, item.read next old = .ok b) ∧
        schema.read source (around (before ++ (middle ++ (.text key, last) :: after))) = .ok a := by
  have through := place.readsThrough lawful
  constructor
  · intro known
    obtain ⟨t, part, same⟩ := through _ a known
    obtain ⟨readable, less⟩ := (Schema.read_table_eq_ok_iff entered before middle after).mp part
    exact ⟨readable, same _ less⟩
  · rintro ⟨readable, known⟩
    obtain ⟨t, part, same⟩ := through _ a known
    exact same _ ((Schema.read_table_eq_ok_iff entered before middle after).mpr ⟨readable, part⟩)

end Documents

end Schema

open Schema

/--
All ways to write a document mean the same. Whatever is done with the members of the records in it,
as long as each of these steps leaves them with the same values, the document is read as before, and
there is a text for it if there is one for each number in it; one in which a record has a field
twice is not read; and of members of a table with one name the last one is taken, if the others can
be read.
-/
theorem IsDocument.decode_respelled {α : Type} {schema : Schema α} (kind : IsDocument schema) :
    (∀ text root root' a, Node.ofText text = (root, false) →
      Relation.ReflTransGen (schema.Respells (.text Source.limit)) root root' →
      schema.decode text = .ok a →
        (∀ text', Node.ofText text' = (root', false) → schema.decode text' = .ok a) ∧
        (root'.IsWhole → root'.EachNumber Number.ReadsBack →
          ∀ spacing, schema.decode (root'.print spacing) = .ok a) ∧
        (root'.IsWhole → root'.EachNumber Number.IsSpelled →
          ∃ text', Node.ofText text' = (root', false) ∧ schema.decode text' = .ok a)) ∧
    (∀ text root trailing a, Node.ofText text = (root, trailing) →
      schema.Doubles (.text Source.limit) root → schema.decode text ≠ .ok a) ∧
    ∀ {β : Type} {item : Schema β} {inner next : Source} {around : List (Node × Node) → Node},
      Place (table item) inner schema (.text Source.limit) around → inner.enter = .ok next →
      ∀ before key old middle last after text text' trailing,
        Node.ofText text = (around (before ++ (.text key, old) :: (middle ++ (.text key, last) ::
          after)), trailing) →
        Node.ofText text' = (around (before ++ (middle ++ (.text key, last) :: after)), trailing) →
        ∀ a, schema.decode text = .ok a ↔
          (∃ b, item.read next old = .ok b) ∧ schema.decode text' = .ok a := by
  have lawful := kind.isLawful.1
  refine ⟨?_, ?_, ?_⟩
  · intro text root root' a parsed respelled known
    have same (text' : String) (parsed' : Node.ofText text' = (root', false)) :
        schema.decode text' = .ok a := by
      have known := ((decode_eq_ok_iff parsed).mp known).1
      exact (decode_eq_ok_iff parsed').mpr ⟨read_eq_ok_of_respells respelled lawful known, rfl⟩
    refine ⟨same, ?_, ?_⟩
    · intro whole back spacing
      apply same
      rw [Node.ofText_print whole, whole.reread_eq back]
    · intro whole spelled
      obtain ⟨text', parsed'⟩ := whole.exists_ofText_eq spelled
      exact ⟨text', parsed', same text' parsed'⟩
  · intro text root trailing a parsed doubled known
    exact doubled.read_ne_ok lawful ((decode_eq_ok_iff parsed).mp known).1
  · intro β item inner next around place entered before key old middle last after text text'
      trailing parsed parsed' a
    rw [decode_eq_ok_iff parsed, decode_eq_ok_iff parsed',
      place.read_table_eq_ok_iff lawful entered before middle after, and_assoc]

/--
The document for a storyboard that has one beat.
-/
def Storyboard.around (beat : Node) : Node :=
  .object [(.text "acts", .array [.object [(.text "shots", .array [.object [(.text "beats",
    .array [beat] true)] true] true)] true] true)] true

theorem Storyboard.place_around {β : Type} {part : Schema β} {inner : Source}
    {beat : List (Node × Node) → Node}
    (inside : Place part inner Beat.schema (.text (Source.limit - 6)) beat) :
    Place part inner schema (.text Source.limit) fun members => around (beat members) := by
  refine .field List.mem_cons_self ?_ rfl (by decide) [] []
  refine .item ?_ rfl [] []
  refine .field (List.mem_cons_of_mem _ List.mem_cons_self) ?_ rfl (by decide) [] []
  refine .item ?_ rfl [] []
  refine .field List.mem_cons_self ?_ rfl (by decide) [] []
  exact .item inside rfl [] []

/--
The beat of a storyboard is written with the other name of its duration, without its empty arguments
and with a member that no beat has. With both names of the duration the storyboard is not read; with
an argument that occurs twice it is.
-/
theorem IsDocument.decode_respelled_of_beat :
    let text (beat : String) : String :=
      "\x7b\"acts\":[\x7b\"shots\":[\x7b\"beats\":[" ++ beat ++ "]\x7d]\x7d]\x7d"
    let board (beat : Beat) : Storyboard := { acts := [{ shots := [{ beats := [beat] }] }] }
    let pulse : Beat := { action := "pulse", duration := some (Number.floatOfInt 2) }
    Storyboard.schema.decode
        (text "\x7b\"hue\":[1],\"run_time\":2,\"action\":\"pulse\"\x7d") = .ok (board pulse) ∧
    Storyboard.schema.decode
        (text "\x7b\"duration\":2,\"action\":\"pulse\",\"run_time\":2\x7d") ≠ .ok (board pulse) ∧
    Storyboard.schema.decode
        (text "\x7b\"action\":\"pulse\",\"args\":\x7b\"to\":1,\"to\":2\x7d\x7d") =
      .ok (board { action := "pulse", args := .ofList [("to", .ofIndex 2)] }) := by
  intro text board pulse
  obtain ⟨respelled, doubled, overwritten⟩ := IsDocument.storyboard.decode_respelled
  let one : Node := .number (.integer 1 (by decide))
  let two : Node := .number (.integer 2 (by decide))
  have place := Storyboard.place_around (.here _ _)
  refine ⟨?_, ?_, ?_⟩
  · have parsed : Node.ofText
        (text "\x7b\"action\":\"pulse\",\"args\":\x7b\x7d,\"duration\":2\x7d") =
          (Storyboard.around (.object [(.text "action", .text "pulse"),
            (.text "args", .object [] true), (.text "duration", two)] true), false) := by
      dsimp only [text]
      cbv
    have parsed' : Node.ofText
        (text "\x7b\"hue\":[1],\"run_time\":2,\"action\":\"pulse\"\x7d") =
          (Storyboard.around (.object [(.text "hue", .array [one] true), (.text "run_time", two),
            (.text "action", .text "pulse")] true), false) := by
      dsimp only [text]
      cbv
    have whole : (Node.array [one] true).IsWhole :=
      .array (List.forall_mem_singleton.mpr (.leaf trivial))
    have room : (Source.text (Source.limit - 7)).Allows (Node.array [one] true).nesting := by
      change 1 ≤ 120
      decide
    have read : Storyboard.schema.decode _ = .ok (board pulse) :=
      (decode_eq_ok_iff parsed).mpr ⟨rfl, rfl⟩
    refine (respelled _ _ _ _ parsed ?_ read).1 _ parsed'
    refine .head (.intro place (.record rfl) (.omitted (List.mem_cons_of_mem _ List.mem_cons_self)
      (by decide) rfl rfl [("action", .text "pulse")] [("duration", two)])) ?_
    refine .head (.intro place (.record rfl) (.renamed (List.mem_cons_of_mem _
      (List.mem_cons_of_mem _ List.mem_cons_self)) (by decide)
      (List.mem_cons_of_mem _ List.mem_cons_self) two [("action", .text "pulse")] [])) ?_
    refine .head (.intro place (.record rfl) (.added (show "hue" ∉ _ by decide) whole room
      [("action", .text "pulse"), ("run_time", two)] [])) ?_
    exact .single (.intro place (.record rfl) (.reordered (List.reverse_perm _).symm))
  · have parsed : Node.ofText
        (text "\x7b\"duration\":2,\"action\":\"pulse\",\"run_time\":2\x7d") =
          (Storyboard.around (.object [(.text "duration", two), (.text "action", .text "pulse"),
            (.text "run_time", two)] true), false) := by
      dsimp only [text]
      cbv
    exact doubled _ _ _ _ parsed (.intro place (.record rfl) (List.mem_cons_of_mem _
      (List.mem_cons_of_mem _ List.mem_cons_self)) (by decide)
      (List.mem_cons_of_mem _ List.mem_cons_self) [] two [(.text "action", .text "pulse")] two [])
  · have parsed : Node.ofText
        (text "\x7b\"action\":\"pulse\",\"args\":\x7b\"to\":1,\"to\":2\x7d\x7d") =
          (Storyboard.around (.object [(.text "action", .text "pulse"),
            (.text "args", .object [(.text "to", one), (.text "to", two)] true)] true), false) := by
      dsimp only [text]
      cbv
    have parsed' : Node.ofText
        (text "\x7b\"action\":\"pulse\",\"args\":\x7b\"to\":2\x7d\x7d") =
          (Storyboard.around (.object [(.text "action", .text "pulse"),
            (.text "args", .object [(.text "to", two)] true)] true), false) := by
      dsimp only [text]
      cbv
    have args := Storyboard.place_around (.field (List.mem_cons_of_mem _ List.mem_cons_self)
      (.here _ _) rfl List.mem_cons_self [(.text "action", .text "pulse")] [])
    apply (overwritten args rfl [] "to" one [] two [] _ _ _ parsed parsed' _).mpr
    exact ⟨⟨_, rfl⟩, (decode_eq_ok_iff parsed').mpr ⟨rfl, rfl⟩⟩

end Stagecraft
