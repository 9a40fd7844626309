import Mathlib.Data.List.Nodup
import Stagecraft.Proofs.Document.RoundTrip

/-!
This module contains how a record is read from an object in memory: by looking its fields up. In
which order the members stand is of no account, but no field may be found under two of its names.
-/

namespace Stagecraft

namespace Node

theorem skipItems_eq_none {items : List Node} (h : ∀ item ∈ items, item.skipFault = none) :
    skipItems items = none := by
  induction items with
  | nil => rfl
  | cons item rest ih =>
    obtain ⟨first, others⟩ := List.forall_mem_cons.mp h
    rw [skipItems, first, ih others]
    rfl

theorem skipMembers_eq_none {members : List (Node × Node)}
    (keys : ∀ member ∈ members, ∃ name, member.1 = .text name)
    (h : ∀ member ∈ members, member.2.skipFault = none) : skipMembers members = none := by
  induction members with
  | nil => rfl
  | cons member rest ih =>
    obtain ⟨key, node⟩ := member
    obtain ⟨⟨name, same⟩, names⟩ := List.forall_mem_cons.mp keys
    obtain ⟨first, others⟩ := List.forall_mem_cons.mp h
    dsimp only at same first
    subst same
    rw [skipMembers, first, ih names others]
    rfl

/--
A document without a fault in it can be passed over.
-/
theorem IsWhole.skipFault_eq_none {node : Node} (whole : node.IsWhole) :
    node.skipFault = none := by
  induction whole with
  | @leaf leaf whole =>
    cases leaf with
    | broken => cases whole
    | _ => rfl
  | array _ ih =>
    rw [skipFault, skipItems_eq_none ih]
    rfl
  | object keys _ ih =>
    rw [skipFault, skipMembers_eq_none keys ih]
    rfl

theorem isWhole_object {pairs : List (String × Node)} (whole : ∀ pair ∈ pairs, pair.2.IsWhole) :
    (object (pairs.map fun (name, node) => (text name, node)) true).IsWhole := by
  apply IsWhole.object
  · rw [List.forall_mem_map]
    exact fun pair _ => ⟨pair.1, rfl⟩
  · rw [List.forall_mem_map]
    exact whole

theorem ofValue_object (t : Table Value) :
    ofValue (.object t) = (Schema.table .value).write t := by
  rw [ofValue, ofMembers_eq_map]
  rfl

/--
An object in which values are written down one after the other, with the last one for each name.
-/
theorem toValue_object (pairs : List (String × Value)) :
    (object (pairs.map fun (name, value) => (text name, ofValue value)) true).toValue .value =
      .ok (.ofMembers pairs) := by
  have members (before : Table Value) :
      toMembers .value before (pairs.map fun (name, value) => (text name, ofValue value)) =
        .ok (pairs.foldl (fun t pair => t.insert pair.1 pair.2) before) := by
    induction pairs generalizing before with
    | nil => rfl
    | cons pair rest ih =>
      have value : (ofValue pair.2).toValue .value = .ok pair.2 := toValue_ofValue pair.2 trivial
      rw [List.map_cons, toMembers, value]
      exact ih (before.insert pair.1 pair.2)
  exact (bind_of_eq_ok rfl).trans (bind_of_eq_ok (members .empty))

end Node

namespace Schema

variable {value : Value}

theorem decodeValue_text_eq_ok_iff {s : String} :
    text.decodeValue value = .ok s ↔ value = .text s := by
  cases value with
  | _ => simp [decodeValue, Node.ofValue, read]

theorem decodeValue_table_value_eq_ok_iff {t : Table Value} :
    (table Schema.value).decodeValue value = .ok t ↔ value = .object t := by
  cases value with
  | object members =>
    have known : (table Schema.value).decodeValue (.object members) = .ok members := by
      rw [decodeValue, Node.ofValue_object]
      exact read_write _ (isLawful_table isLawful_value) (fun _ _ _ => trivial) trivial
    simp [known]
  | _ => simp [decodeValue, Node.ofValue, read]

theorem decodeValue_optional_table_eq_ok_iff {found : Option (Table Value)} :
    (optional (table Schema.value)).decodeValue value = .ok found ↔
      value = .null ∧ found = none ∨ ∃ t, value = .object t ∧ found = some t := by
  by_cases null : value = .null
  · subst null
    simp [decodeValue, Node.ofValue, read, eq_comm]
  · have some : Node.ofValue value ≠ .null := by
      cases value with
      | null => exact absurd rfl null
      | _ => simp [Node.ofValue]
    have item (t : Table Value) := @decodeValue_table_value_eq_ok_iff value t
    unfold decodeValue at item ⊢
    rw [read_optional some, map_eq_ok_iff]
    simp only [item, null, false_and, false_or, eq_comm]

end Schema

/--
What stands under the names of a field.
-/
def FieldName.nodes (name : FieldName) (pairs : List (String × Node)) : List Node :=
  (pairs.filter (·.1 ∈ name.all)).map (·.2)

theorem FieldName.nodes_cons_of_mem {name : FieldName} {key : String} (own : key ∈ name.all)
    (node : Node) (tail : List (String × Node)) :
    name.nodes ((key, node) :: tail) = node :: name.nodes tail := by
  simp [nodes, own]

theorem FieldName.nodes_cons_of_not_mem {name : FieldName} {key : String} (foreign : key ∉ name.all)
    (node : Node) (tail : List (String × Node)) :
    name.nodes ((key, node) :: tail) = name.nodes tail := by
  simp [nodes, foreign]

namespace Fields

variable {α ρ σ : Type} {source : Source}

/--
Whether each field has its value from some members: from the only one that there is under its
names, or by default where there is none.
-/
def Holds (source : Source) (pairs : List (String × Node)) : {ρ σ : Type} → Fields ρ σ → ρ → Prop
  | _, _, .nil, _ => True
  | _, _, .cons name absent _ schema rest, (a, values) =>
    (name.nodes pairs = [] ∧ some a = absent ∨
      ∃ node, name.nodes pairs = [node] ∧ schema.read source node = .ok a) ∧
    rest.Holds source pairs values

theorem accept_of_not_mem {ρ σ : Type} (fields : Fields ρ σ) {name : String}
    (h : name ∉ fields.names) (source : Source) (node : Node) (found : σ) :
    fields.accept source name node found = .ok none := by
  match fields, found with
  | .nil, _ => rfl
  | .cons field absent omitted schema rest, (slot, others) =>
    obtain ⟨own, other⟩ := not_or.mp (mt List.mem_append.mpr h)
    rw [accept, if_neg (mt List.mem_cons.mpr own), rest.accept_of_not_mem other source]
    rfl

/--
The members with given names.
-/
abbrev named (pairs : List (String × Node)) : List (Node × Node) :=
  pairs.map fun (name, node) => (.text name, node)

/--
An object in which some of the fields are found has text for all of its names.
-/
theorem exists_eq_named {accept : String → Node → σ → Except Fault (Option σ)}
    {members : List (Node × Node)} {found last : σ}
    (read : acceptAll accept members found = .ok last) : ∃ pairs, members = named pairs := by
  induction members generalizing found with
  | nil => exact ⟨[], rfl⟩
  | cons member rest ih =>
    obtain ⟨key, node⟩ := member
    obtain ⟨name, spelled, read⟩ := exists_of_bind_eq_ok read
    obtain ⟨taken, _, read⟩ := exists_of_bind_eq_ok read
    have others : ∃ pairs, rest = named pairs := by
      cases taken with
      | some more => exact ih read
      | none =>
        obtain ⟨_, _, read⟩ := exists_of_bind_eq_ok read
        exact ih read
    obtain ⟨pairs, rfl⟩ := others
    rw [Node.name_eq_ok_iff.mp spelled]
    exact ⟨(name, node) :: pairs, rfl⟩

theorem accept_ne_none {ρ σ : Type} (fields : Fields ρ σ) {name : String}
    (h : name ∈ fields.names) (source : Source) (node : Node) (found : σ) :
    fields.accept source name node found ≠ .ok none := by
  match fields, found with
  | .nil, _ => cases h
  | .cons field absent omitted schema rest, (slot, others) =>
    rw [accept]
    by_cases own : name ∈ field.all
    · rw [if_pos (List.mem_cons.mp own)]
      cases slot with
      | some => exact nofun
      | none =>
        cases schema.read source node with
        | error => exact nofun
        | ok => exact nofun
    · have taken := rest.accept_ne_none ((List.mem_append.mp h).resolve_left own) source node others
      rw [if_neg (mt List.mem_cons.mpr own)]
      cases known : rest.accept source name node others with
      | error => exact nofun
      | ok more =>
        cases more with
        | none => exact absurd known taken
        | some => exact nofun

/--
Whether `last` is what has been found with some members, if `found` was found before them. A field
is not found twice.
-/
def Finds (source : Source) (pairs : List (String × Node)) :
    {ρ σ : Type} → Fields ρ σ → (found last : σ) → Prop
  | _, _, .nil, _, _ => True
  | _, _, .cons name _ _ schema rest, (slot, others), (last, lasts) =>
    (name.nodes pairs = [] ∧ slot = last ∨
      ∃ node a, name.nodes pairs = [node] ∧ schema.read source node = .ok a ∧ slot = none ∧
        last = some a) ∧
    rest.Finds source pairs others lasts

theorem finds_nil {ρ σ : Type} (fields : Fields ρ σ) {found last : σ} :
    fields.Finds source [] found last ↔ found = last := by
  match fields, found, last with
  | .nil, _, _ => exact iff_of_true trivial rfl
  | .cons name _ _ _ rest, (slot, others), (last, lasts) =>
    rw [Finds, rest.finds_nil, Prod.mk.injEq]
    simp [FieldName.nodes]

section Cons

variable {key : String} {node : Node} {tail : List (String × Node)}

theorem finds_cons_of_not_mem {ρ σ : Type} (fields : Fields ρ σ) (h : key ∉ fields.names)
    {found last : σ} :
    fields.Finds source ((key, node) :: tail) found last ↔ fields.Finds source tail found last := by
  match fields, found, last with
  | .nil, _, _ => exact Iff.rfl
  | .cons name _ _ _ rest, (slot, others), (last, lasts) =>
    obtain ⟨own, other⟩ := not_or.mp (mt List.mem_append.mpr h)
    rw [Finds, Finds, FieldName.nodes_cons_of_not_mem own, rest.finds_cons_of_not_mem other]

theorem finds_cons_own {name : FieldName} {absent : Option α} {omitted : α → Bool}
    {schema : Schema α} {rest : Fields ρ σ} (fresh : ∀ other ∈ name.all, other ∉ rest.names)
    (own : key ∈ name.all) {slot : Option α} {others : σ} {last : Option α × σ} :
    (cons name absent omitted schema rest).Finds source ((key, node) :: tail) (slot, others) last ↔
      slot = none ∧ ∃ a, schema.read source node = .ok a ∧
        (cons name absent omitted schema rest).Finds source tail (some a, others) last := by
  obtain ⟨last, lasts⟩ := last
  rw [Finds, FieldName.nodes_cons_of_mem own, rest.finds_cons_of_not_mem (fresh key own)]
  constructor
  · rintro ⟨⟨⟨⟩, _⟩ | ⟨_, a, one, read, vacant, rfl⟩, found⟩
    obtain ⟨rfl, empty⟩ := List.cons.inj one
    exact ⟨vacant, a, read, .inl ⟨empty, rfl⟩, found⟩
  · rintro ⟨vacant, a, read, ⟨empty, rfl⟩ | ⟨_, _, _, _, ⟨⟩, _⟩, found⟩
    exact ⟨.inr ⟨node, a, by rw [empty], read, vacant, rfl⟩, found⟩

/--
A member with the name of a field is taken by the field with this name, if nothing was before.
-/
theorem finds_cons_of_mem {ρ σ : Type} (fields : Fields ρ σ) (lawful : fields.IsLawful)
    (h : key ∈ fields.names) {found last : σ} :
    fields.Finds source ((key, node) :: tail) found last ↔
      ∃ more, fields.accept source key node found = .ok (some more) ∧
        fields.Finds source tail more last := by
  match fields, found, last with
  | .nil, _, _ => cases h
  | .cons name _ _ schema rest, (slot, others), (last, lasts) =>
    obtain ⟨_, lawful, fresh, _, _⟩ := lawful
    rw [accept]
    by_cases own : key ∈ name.all
    · rw [finds_cons_own fresh own, if_pos (List.mem_cons.mp own)]
      cases slot with
      | some => simp
      | none =>
        cases schema.read source node with
        | error => simp [bind, Except.bind]
        | ok => simp [bind, Except.bind, pure, Except.pure]
    · have other := (List.mem_append.mp h).resolve_left own
      rw [Finds, FieldName.nodes_cons_of_not_mem own, rest.finds_cons_of_mem lawful other,
        if_neg (mt List.mem_cons.mpr own)]
      cases rest.accept source key node others with
      | error => simp [bind, Except.bind]
      | ok more =>
        cases more with
        | none => simp [bind, Except.bind, pure, Except.pure]
        | some others => simp [bind, Except.bind, pure, Except.pure, Finds]

end Cons

/--
An object is taken member by member: those that are not for any field have to be well-formed only as
far as it takes to pass over them.
-/
theorem collect_named_eq_ok_iff {fields : Fields ρ σ} (lawful : fields.IsLawful)
    {pairs : List (String × Node)} {found last : σ} :
    fields.collect source (named pairs) found = .ok last ↔
      (∀ pair ∈ pairs, pair.1 ∉ fields.names → pair.2.skipFault = none) ∧
        fields.Finds source pairs found last := by
  induction pairs generalizing found with
  | nil =>
    rw [finds_nil]
    simp [collect, acceptAll]
  | cons pair tail ih =>
    obtain ⟨key, node⟩ := pair
    have ih (found : σ) := @ih found
    unfold collect at ih ⊢
    rw [List.forall_mem_cons, named, List.map_cons, acceptAll, Node.name, bind_of_eq_ok rfl]
    by_cases known : key ∈ fields.names
    · rw [fields.finds_cons_of_mem lawful known]
      have taken := fields.accept_ne_none known source node found
      cases accepted : fields.accept source key node found with
      | error => simp [bind, Except.bind]
      | ok more =>
        cases more with
        | none => exact absurd accepted taken
        | some more => simpa [bind, Except.bind, known] using ih more
    · rw [fields.finds_cons_of_not_mem known, fields.accept_of_not_mem known, bind_of_eq_ok rfl]
      cases skipped : node.skipFault with
      | some => simp [check, bind, Except.bind, known]
      | none => simpa [check, bind, Except.bind, known, skipped] using ih found

theorem finds_and_finish_iff {ρ σ : Type} (fields : Fields ρ σ) (pairs : List (String × Node)) :
    ∀ values, (∃ found, fields.Finds source pairs fields.blank found ∧
        fields.finish found = .ok values) ↔ fields.Holds source pairs values := by
  match fields with
  | .nil => exact fun _ => iff_of_true ⟨(), trivial, rfl⟩ trivial
  | .cons name absent omitted schema rest =>
    rintro ⟨a, values⟩
    rw [Holds, ← rest.finds_and_finish_iff, Prod.exists]
    simp only [blank, Finds, true_and]
    constructor
    · rintro ⟨last, lasts, ⟨slot, found⟩, finished⟩
      rw [finish] at finished
      cases given : last.or absent with
      | none =>
        rw [given] at finished
        cases finished
      | some b =>
        rw [given] at finished
        obtain ⟨rests, finished, same⟩ := exists_of_bind_eq_ok finished
        cases same
        refine ⟨?_, lasts, found, finished⟩
        rcases slot with ⟨empty, rfl⟩ | ⟨node, c, one, read, rfl⟩
        · exact .inl ⟨empty, given.symm⟩
        · cases given
          exact .inr ⟨node, one, read⟩
    · rintro ⟨slot, lasts, found, finished⟩
      rcases slot with ⟨empty, given⟩ | ⟨node, one, read⟩
      · refine ⟨none, lasts, ⟨.inl ⟨empty, rfl⟩, found⟩, ?_⟩
        rw [finish, Option.none_or, ← given, finished]
        rfl
      · refine ⟨some a, lasts, ⟨.inr ⟨node, a, one, read, rfl⟩, found⟩, ?_⟩
        rw [finish, Option.some_or, finished]
        rfl

theorem collect_eq_ok_and_finish_eq_ok_iff {fields : Fields ρ σ} (lawful : fields.IsLawful)
    {pairs : List (String × Node)} {values : ρ} :
    (∃ found, fields.collect source (named pairs) fields.blank = .ok found ∧
        fields.finish found = .ok values) ↔
      (∀ pair ∈ pairs, pair.1 ∉ fields.names → pair.2.skipFault = none) ∧
        fields.Holds source pairs values := by
  rw [← fields.finds_and_finish_iff]
  simp only [collect_named_eq_ok_iff lawful, and_assoc, exists_and_left]

end Fields

section Objects

variable {α ρ σ : Type} {type : String} {fields : Fields ρ σ} {make : ρ → α} {source next : Source}
  {pairs : List (String × Node)} {a : α}

/--
The values of the fields are those that the members hold, in which order they may stand. The members
with other names are passed over.
-/
theorem Schema.read_record_eq_ok_iff {view : α → ρ} (lawful : fields.IsLawful)
    (entered : source.enter = .ok next) :
    (record type fields make view).read source (.object (Fields.named pairs) true) = .ok a ↔
      (∀ pair ∈ pairs, pair.1 ∉ fields.names → pair.2.skipFault = none) ∧
        ∃ values, fields.Holds next pairs values ∧ make values = a := by
  have parts (values : ρ) :=
    @Fields.collect_eq_ok_and_finish_eq_ok_iff _ _ next _ lawful pairs values
  rw [read, bind_of_eq_ok entered]
  constructor
  · intro read
    obtain ⟨found, collected, read⟩ := exists_of_bind_eq_ok read
    obtain ⟨_, _, read⟩ := exists_of_bind_eq_ok read
    obtain ⟨values, finished, read⟩ := exists_of_bind_eq_ok read
    cases read
    obtain ⟨passed, held⟩ := (parts values).mp ⟨found, collected, finished⟩
    exact ⟨passed, values, held, rfl⟩
  · rintro ⟨passed, values, held, rfl⟩
    obtain ⟨found, collected, finished⟩ := (parts values).mpr ⟨passed, held⟩
    refine (bind_of_eq_ok collected).trans ((bind_of_eq_ok rfl).trans ?_)
    exact (bind_of_eq_ok finished).trans rfl

theorem Node.exists_toValue_named_iff (entered : source.enter = .ok next) :
    (∃ value, (object (Fields.named pairs) true).toValue source = .ok value) ↔
      ∀ pair ∈ pairs, pair.2.IsWhole ∧ next.Allows pair.2.nesting := by
  rw [exists_toValue_iff, nesting, Source.allows_succ_iff entered, allows_nestingMembers_iff,
    Fields.named, List.forall_mem_map]
  constructor
  · rintro ⟨whole, room⟩ pair mem
    cases whole with
    | object _ whole => exact ⟨whole _ (List.mem_map_of_mem mem), room pair mem⟩
  · intro h
    exact ⟨isWhole_object fun pair mem => (h pair mem).1, fun pair mem => (h pair mem).2⟩

/--
An object that could be text instead is kept as a value at first, its members with other names, too.
-/
theorem Schema.read_either_eq_ok_iff {ofText : String → α} {view : α → String ⊕ ρ}
    (lawful : fields.IsLawful) (entered : source.enter = .ok next) :
    (either type ofText fields make view).read source (.object (Fields.named pairs) true) = .ok a ↔
      (∀ pair ∈ pairs, pair.2.IsWhole ∧ next.Allows pair.2.nesting) ∧
        ∃ values, fields.Holds .buffer pairs values ∧ make values = a := by
  have parts (values : ρ) :=
    @Fields.collect_eq_ok_and_finish_eq_ok_iff _ _ .buffer _ lawful pairs values
  rw [read, ← Node.exists_toValue_named_iff entered]
  constructor
  · intro read
    obtain ⟨_, known, read⟩ := exists_of_bind_eq_ok read
    obtain ⟨value, known, _⟩ := exists_of_bind_eq_ok known
    refine ⟨⟨value, known⟩, ?_⟩
    dsimp only at read
    split at read
    next values collected =>
      cases read
      exact ⟨values, ((parts values).mp (exists_of_bind_eq_ok collected)).2, rfl⟩
    next => cases read
  · rintro ⟨⟨value, known⟩, values, held, rfl⟩
    have plain (pair : String × Node) (mem : pair ∈ pairs) (_ : pair.1 ∉ fields.names) :=
      ((Node.exists_toValue_named_iff entered).mp ⟨value, known⟩ pair mem).1.skipFault_eq_none
    obtain ⟨found, collected, finished⟩ := (parts values).mpr ⟨plain, held⟩
    rw [known]
    apply (bind_of_eq_ok rfl).trans
    dsimp only
    rw [bind_of_eq_ok collected, finished]
    rfl

theorem Schema.read_either_of_holds {ofText : String → α} {view : α → String ⊕ ρ} (values : ρ)
    (lawful : fields.IsLawful) (whole : ∀ pair ∈ pairs, pair.2.IsWhole)
    (room : source.Allows (Node.object (Fields.named pairs) true).nesting)
    (h : fields.Holds .buffer pairs values) :
    (either type ofText fields make view).read source (.object (Fields.named pairs) true) =
      .ok (make values) := by
  obtain ⟨next, entered, room⟩ := room.exists_enter
  rw [read_either_eq_ok_iff lawful entered]
  refine ⟨fun pair mem => ⟨whole pair mem, ?_⟩, values, h, rfl⟩
  exact Node.allows_member room (List.mem_map_of_mem mem)

end Objects

/--
The members of an object in memory.
-/
def Table.nodes (t : Table Value) : List (String × Node) :=
  t.toList.map fun (name, value) => (name, .ofValue value)

namespace FieldName

variable {name : FieldName} {t : Table Value}

theorem nodes_eq_map (name : FieldName) (t : Table Value) :
    name.nodes t.nodes = (t.toList.filter (·.1 ∈ name.all)).map (.ofValue ·.2) := by
  unfold nodes Table.nodes
  rw [List.filter_map, List.map_map]
  rfl

theorem nodes_eq_nil_iff :
    name.nodes t.nodes = [] ↔ ∀ known ∈ name.all, t.get? known = none := by
  rw [nodes_eq_map, List.map_eq_nil_iff, List.filter_eq_nil_iff]
  constructor
  · intro h known own
    rw [Option.eq_none_iff_forall_ne_some]
    intro value found
    exact h (known, value) (Entries.mem_toList_iff.mpr found) (decide_eq_true own)
  · intro h pair mem own
    have found := Entries.mem_toList_iff.mp mem
    rw [h pair.1 (of_decide_eq_true own)] at found
    cases found

theorem nodes_eq_singleton_iff {node : Node} :
    name.nodes t.nodes = [node] ↔
      ∃ known ∈ name.all, ∃ value, t.get? known = some value ∧ .ofValue value = node ∧
        ∀ other ∈ name.all, other ≠ known → t.get? other = none := by
  have mem_iff (pair : String × Value) :
      pair ∈ t.toList.filter (·.1 ∈ name.all) ↔
        t.get? pair.1 = some pair.2 ∧ pair.1 ∈ name.all := by
    rw [List.mem_filter, Entries.mem_toList_iff, decide_eq_true_iff]
  have nodup : (t.toList.filter (·.1 ∈ name.all)).Nodup := by
    apply List.Nodup.filter
    exact List.Nodup.of_map Prod.fst (t.pairwise_keys.imp fun lt => ne_of_lt lt)
  rw [nodes_eq_map, List.map_eq_singleton_iff]
  constructor
  · rintro ⟨⟨known, value⟩, one, rfl⟩
    rw [one] at mem_iff
    obtain ⟨found, own⟩ := (mem_iff (known, value)).mp (List.mem_singleton_self _)
    refine ⟨known, own, value, found, rfl, ?_⟩
    intro other other_own ne
    rw [Option.eq_none_iff_forall_ne_some]
    intro another also
    have same := List.mem_singleton.mp ((mem_iff (other, another)).mpr ⟨also, other_own⟩)
    exact ne (congrArg Prod.fst same)
  · rintro ⟨known, own, value, found, rfl, only⟩
    refine ⟨(known, value), ?_, rfl⟩
    rw [← List.perm_singleton, List.perm_ext_iff_of_nodup nodup (List.nodup_singleton _)]
    rintro ⟨other, another⟩
    rw [mem_iff, List.mem_singleton]
    constructor
    · rintro ⟨also, other_own⟩
      by_cases same : other = known
      · subst same
        rw [found] at also
        cases also
        rfl
      · rw [only other other_own same] at also
        cases also
    · intro same
      cases same
      exact ⟨found, own⟩

end FieldName

theorem Fields.holds_cons_iff {α ρ σ : Type} {name : FieldName} {absent : Option α}
    {omitted : α → Bool} {schema : Schema α} {rest : Fields ρ σ} {t : Table Value} {a : α}
    {values : ρ} :
    (cons name absent omitted schema rest).Holds .value t.nodes (a, values) ↔
      ((∀ known ∈ name.all, t.get? known = none) ∧ some a = absent ∨
        ∃ known ∈ name.all, ∃ value, t.get? known = some value ∧
          schema.decodeValue value = .ok a ∧
          ∀ other ∈ name.all, other ≠ known → t.get? other = none) ∧
      rest.Holds .value t.nodes values := by
  rw [Holds, FieldName.nodes_eq_nil_iff]
  simp only [FieldName.nodes_eq_singleton_iff]
  refine and_congr_left' (or_congr_right ?_)
  constructor
  · rintro ⟨_, ⟨known, own, value, found, rfl, only⟩, read⟩
    exact ⟨known, own, value, found, read, only⟩
  · rintro ⟨known, own, value, found, read, only⟩
    exact ⟨_, ⟨known, own, value, found, rfl, only⟩, read⟩

/--
An object in memory is read as a record by looking up its fields.
-/
theorem Schema.decodeValue_record_eq_ok_iff {α ρ σ : Type} {type : String} {fields : Fields ρ σ}
    {make : ρ → α} {view : α → ρ} (h : (Schema.record type fields make view).IsLawful)
    {t : Table Value} {a : α} :
    (Schema.record type fields make view).decodeValue (.object t) = .ok a ↔
      fields.Holds .value t.nodes (view a) := by
  obtain ⟨lawful, view_iff⟩ := h
  have plain : ∀ pair ∈ t.nodes, pair.2.skipFault = none := by
    unfold Table.nodes
    rw [List.forall_mem_map]
    exact fun pair _ => (Node.isWhole_ofValue pair.2).skipFault_eq_none
  have members : Node.ofMembers t = Fields.named t.nodes := by
    unfold Table.nodes
    rw [Node.ofMembers_eq_map, Fields.named, List.map_map]
    rfl
  rw [decodeValue, Node.ofValue, members, read_record_eq_ok_iff lawful rfl,
    and_iff_right fun pair mem _ => plain pair mem]
  constructor
  · rintro ⟨values, held, rfl⟩
    rwa [(view_iff _ values).mpr rfl]
  · intro held
    exact ⟨view a, held, (view_iff a _).mp rfl⟩

end Stagecraft
