import Stagecraft.Proofs.Document.Members

/-!
This module contains the places in a document where objects are read, however deep inside. The
document is read through the objects in it: it can be read only if they can, and where one of them
is put in the place of another that is read as the same value, nothing changes.
-/

namespace Stagecraft

/--
Whether all that `f` gets to know of what it reads is what `g` reads: it can read no more than `g`
can, and what is the same to `g` is the same to `f`.
-/
def ReadsThrough {ι α β ε : Type} (f : ι → Except ε α) (g : ι → Except ε β) : Prop :=
  ∀ i a, f i = .ok a → ∃ b, g i = .ok b ∧ ∀ j, g j = .ok b → f j = .ok a

namespace ReadsThrough

variable {ι κ α β γ ε : Type} {f : ι → Except ε α} {g : ι → Except ε β}

theorem refl (f : ι → Except ε α) : ReadsThrough f f :=
  fun _ a read => ⟨a, read, fun _ same => same⟩

theorem trans {h : ι → Except ε γ} (first : ReadsThrough f g) (second : ReadsThrough g h) :
    ReadsThrough f h := by
  intro i a read
  obtain ⟨b, part, outer⟩ := first i a read
  obtain ⟨c, innermost, inner⟩ := second i b part
  exact ⟨c, innermost, fun j same => outer j (inner j same)⟩

theorem comp (h : ReadsThrough f g) (k : κ → ι) :
    ReadsThrough (fun i => f (k i)) fun i => g (k i) := by
  intro i a read
  obtain ⟨b, part, same⟩ := h (k i) a read
  exact ⟨b, part, fun j => same (k j)⟩

theorem of_error {error : ε} (h : ∀ i, f i = .error error) : ReadsThrough f g := by
  intro i a read
  rw [h i] at read
  cases read

theorem bind (h : ReadsThrough f g) (next : α → Except ε γ) :
    ReadsThrough (fun i => f i >>= next) g := by
  intro i c read
  obtain ⟨a, first, read⟩ := exists_of_bind_eq_ok read
  obtain ⟨b, part, same⟩ := h i a first
  exact ⟨b, part, fun j known => (bind_of_eq_ok (same j known)).trans read⟩

theorem map (h : ReadsThrough f g) (view : α → γ) : ReadsThrough (fun i => view <$> f i) g := by
  intro i c read
  obtain ⟨a, first, rfl⟩ := map_eq_ok_iff.mp read
  obtain ⟨b, part, same⟩ := h i a first
  exact ⟨b, part, fun j known => map_eq_ok_iff.mpr ⟨a, same j known, rfl⟩⟩

/--
What is read before does not depend on the part.
-/
theorem after {first : Except ε γ} {next : γ → ι → Except ε α}
    (h : ∀ c, first = .ok c → ReadsThrough (next c) g) :
    ReadsThrough (fun i => first >>= fun c => next c i) g := by
  cases first with
  | error error => exact of_error fun _ => rfl
  | ok c => exact h c rfl

end ReadsThrough

section Parts

variable {α β ρ σ : Type}

theorem readsThrough_mapM (f : Node → Except Fault α) (before after : List Node) :
    ReadsThrough (fun node => (before ++ node :: after).mapM f) f := by
  simp only [List.mapM_append, List.mapM_cons]
  exact .after fun _ _ => ((ReadsThrough.refl f).bind _).bind _

theorem readsThrough_foldlM {f : σ → Node × Node → Except Fault σ} {key : Node}
    {g : Node → Except Fault β} (h : ∀ s, ReadsThrough (fun node => f s (key, node)) g)
    (before after : List (Node × Node)) (s : σ) :
    ReadsThrough (fun node => (before ++ (key, node) :: after).foldlM f s) g := by
  simp only [List.foldlM_append, List.foldlM_cons]
  exact .after fun s _ => (h s).bind _

theorem acceptAll_append {accept : String → Node → σ → Except Fault (Option σ)}
    (before after : List (Node × Node)) (found : σ) :
    acceptAll accept (before ++ after) found =
      acceptAll accept before found >>= acceptAll accept after := by
  induction before generalizing found with
  | nil => rfl
  | cons member rest ih =>
    obtain ⟨key, node⟩ := member
    rw [List.cons_append, acceptAll, acceptAll]
    cases key.name with
    | error => rfl
    | ok name =>
      dsimp only [bind, Except.bind]
      cases accept name node found with
      | error => rfl
      | ok taken =>
        cases taken with
        | some found => exact ih found
        | none =>
          dsimp only
          cases check node.skipFault with
          | error => rfl
          | ok => exact ih found

theorem readsThrough_acceptAll {accept : String → Node → σ → Except Fault (Option σ)}
    {key : String} {g : Node → Except Fault β}
    (taken : ∀ node found, accept key node found ≠ .ok none)
    (h : ∀ found, ReadsThrough (fun node => accept key node found) g)
    (before after : List (Node × Node)) (found : σ) :
    ReadsThrough (fun node => acceptAll accept (before ++ (.text key, node) :: after) found) g := by
  simp only [acceptAll_append]
  refine .after fun found _ => ?_
  intro node last read
  obtain ⟨_, ⟨⟩, read⟩ := exists_of_bind_eq_ok read
  obtain ⟨more, accepted, read⟩ := exists_of_bind_eq_ok read
  obtain ⟨b, part, same⟩ := h found node more accepted
  refine ⟨b, part, ?_⟩
  intro other known
  cases more with
  | none => exact absurd accepted (taken node found)
  | some more => exact (acceptAll_cons (same other known) after).trans read

end Parts

/--
A field of a record, whatever type its values have.
-/
structure Field where
  {Result : Type}
  name : FieldName
  absent : Option Result
  schema : Schema Result

def Fields.all : {ρ σ : Type} → Fields ρ σ → List Field
  | _, _, .nil => []
  | _, _, .cons name absent _ schema rest => ⟨name, absent, schema⟩ :: rest.all

namespace Fields

variable {ρ σ : Type} {field : Field} {key : String}

theorem mem_names_of_mem_all {ρ σ : Type} {fields : Fields ρ σ} (mem : field ∈ fields.all)
    (own : key ∈ field.name.all) : key ∈ fields.names := by
  match fields with
  | .nil => cases mem
  | .cons name _ _ _ rest =>
    obtain rfl | mem := List.mem_cons.mp mem
    · exact List.mem_append_left _ own
    · exact List.mem_append_right _ (mem_names_of_mem_all mem own)

theorem IsLawful.schema_of_mem {ρ σ : Type} {fields : Fields ρ σ} (lawful : fields.IsLawful)
    (mem : field ∈ fields.all) : field.schema.IsLawful := by
  match fields with
  | .nil => cases mem
  | .cons name _ _ _ rest =>
    obtain ⟨first, lawful, _⟩ := lawful
    obtain rfl | mem := List.mem_cons.mp mem
    · exact first
    · exact lawful.schema_of_mem mem

theorem readsThrough_accept {ρ σ : Type} {fields : Fields ρ σ} (lawful : fields.IsLawful)
    (mem : field ∈ fields.all) (own : key ∈ field.name.all) (source : Source) (found : σ) :
    ReadsThrough (fun node => fields.accept source key node found) (field.schema.read source) := by
  match fields, found with
  | .nil, _ => cases mem
  | .cons name _ _ schema rest, (slot, others) =>
    obtain ⟨_, lawful, fresh, _⟩ := lawful
    simp only [accept]
    obtain rfl | mem := List.mem_cons.mp mem
    · simp only [if_pos (List.mem_cons.mp own)]
      cases slot with
      | some => exact .of_error fun _ => rfl
      | none => exact (ReadsThrough.refl _).bind _
    · have other : key ∉ name.all := fun first => fresh key first (mem_names_of_mem_all mem own)
      simp only [if_neg (mt List.mem_cons.mpr other)]
      exact (readsThrough_accept lawful mem own source others).bind _

theorem readsThrough_collect {fields : Fields ρ σ} (lawful : fields.IsLawful)
    (mem : field ∈ fields.all) (own : key ∈ field.name.all) (source : Source)
    (before after : List (Node × Node)) (found : σ) :
    ReadsThrough (fun node => fields.collect source (before ++ (.text key, node) :: after) found)
      (field.schema.read source) := by
  refine readsThrough_acceptAll ?_ ?_ before after found
  · exact fields.accept_ne_none (mem_names_of_mem_all mem own) source
  · exact readsThrough_accept lawful mem own source

theorem readsThrough_readItems {ρ σ : Type} {fields : Fields ρ σ} {firsts lasts : List Field}
    (all : fields.all = firsts ++ field :: lasts) {before : List Node}
    (length : before.length = firsts.length) (source : Source) (type : String) (count : Nat)
    (closed : Bool) (taken : Nat) (after : List Node) :
    ReadsThrough
      (fun node => fields.readItems source type count closed taken (before ++ node :: after))
      (field.schema.read source) := by
  match fields, firsts, before with
  | .nil, _, _ =>
    exact absurd all.symm (List.append_ne_nil_of_right_ne_nil _ (List.cons_ne_nil _ _))
  | .cons _ _ _ schema rest, [], [] =>
    obtain ⟨rfl, _⟩ := List.cons.inj all
    exact (ReadsThrough.refl _).bind _
  | .cons _ _ _ schema rest, first :: firsts, node :: before =>
    obtain ⟨_, all⟩ := List.cons.inj all
    refine .after fun _ _ => ?_
    exact (readsThrough_readItems all (Nat.succ.inj length) source type count closed _ after).bind _

end Fields

section Values

variable {source next : Source} {key : String}

theorem Node.toValues_eq_mapM (source : Source) (items : List Node) :
    toValues source items = items.mapM (·.toValue source) := by
  induction items with
  | nil => rfl
  | cons item rest ih => rw [toValues, ih, List.mapM_cons]

theorem Node.toMembers_eq_foldlM (source : Source) (members : List (Node × Node))
    (before : Table Value) :
    toMembers source before members = members.foldlM (fun before (key, node) => do
      let name ← key.name
      return before.insert name (← node.toValue source)) before := by
  induction members generalizing before with
  | nil => rfl
  | cons member rest ih =>
    obtain ⟨key, node⟩ := member
    rw [toMembers, List.foldlM_cons]
    simp only [ih, bind_assoc, pure_bind]

/--
A list that is taken as a value is read like a list of values.
-/
theorem Node.toValue_array (source : Source) (items : List Node) (closed : Bool) :
    (array items closed).toValue source =
      .array <$> (Schema.list .value).read source (.array items closed) := by
  rw [toValue, Schema.read]
  simp only [toValues_eq_mapM, map_bind, map_pure, Schema.read]

/--
An object that is taken as a value is read like a table of values.
-/
theorem Node.toValue_object_eq_map (source : Source) (members : List (Node × Node))
    (closed : Bool) :
    (object members closed).toValue source =
      .object <$> (Schema.table .value).read source (.object members closed) := by
  rw [toValue, Schema.read]
  simp only [toMembers_eq_foldlM, map_bind, map_pure, Schema.read]

theorem Schema.read_table_value_eq_ok_iff {node : Node} {t : Table Value} :
    (table Schema.value).read source node = .ok t ↔ node.toValue source = .ok (.object t) := by
  match node with
  | .object members closed =>
    rw [Node.toValue_object_eq_map, map_eq_ok_iff]
    simp
  | .array items closed =>
    rw [Node.toValue_array, map_eq_ok_iff]
    simp [read]
  | .leaf leaf =>
    cases leaf with
    | _ => simp [read, Node.toValue]
  | .missing _ => simp [read, Node.toValue]

mutual

/--
What could be read from a text is the same when it has been set aside.
-/
theorem Node.toValue_buffer (node : Node) {source : Source} {value : Value}
    (read : node.toValue source = .ok value) : node.toValue .buffer = .ok value := by
  match node with
  | .leaf .null | .leaf (.flag _) | .leaf (.number _) | .leaf (.text _) => exact read
  | .leaf (.broken ..) | .missing _ => cases read
  | .array items closed =>
    obtain ⟨_, _, read⟩ := exists_of_bind_eq_ok read
    obtain ⟨_, found, read⟩ := exists_of_bind_eq_ok read
    exact (bind_of_eq_ok rfl).trans ((bind_of_eq_ok (toValues_buffer items found)).trans read)
  | .object members closed =>
    obtain ⟨_, _, read⟩ := exists_of_bind_eq_ok read
    obtain ⟨_, found, read⟩ := exists_of_bind_eq_ok read
    exact (bind_of_eq_ok rfl).trans ((bind_of_eq_ok (toMembers_buffer members found)).trans read)

theorem Node.toValues_buffer (items : List Node) {source : Source} {values : List Value}
    (read : toValues source items = .ok values) : toValues .buffer items = .ok values := by
  match items with
  | [] => exact read
  | item :: rest =>
    obtain ⟨_, first, read⟩ := exists_of_bind_eq_ok read
    obtain ⟨_, others, read⟩ := exists_of_bind_eq_ok read
    refine (bind_of_eq_ok (toValue_buffer item first)).trans ?_
    exact (bind_of_eq_ok (toValues_buffer rest others)).trans read

theorem Node.toMembers_buffer (members : List (Node × Node)) {source : Source}
    {before t : Table Value} (read : toMembers source before members = .ok t) :
    toMembers .buffer before members = .ok t := by
  match members with
  | [] => exact read
  | (key, node) :: rest =>
    obtain ⟨_, spelled, read⟩ := exists_of_bind_eq_ok read
    obtain ⟨_, first, read⟩ := exists_of_bind_eq_ok read
    refine (bind_of_eq_ok spelled).trans ((bind_of_eq_ok (toValue_buffer node first)).trans ?_)
    exact toMembers_buffer rest read

end

end Values

namespace Schema

variable {α β ρ σ : Type} {source next : Source} {key : String}

theorem readsThrough_item (item : Schema α) (entered : source.enter = .ok next)
    (before after : List Node) :
    ReadsThrough (fun node => (list item).read source (.array (before ++ node :: after) true))
      (item.read next) := by
  simp only [read, entered]
  exact (readsThrough_mapM _ before after).bind _

theorem readsThrough_entry (item : Schema α) (entered : source.enter = .ok next)
    (before after : List (Node × Node)) :
    ReadsThrough
      (fun node => (table item).read source (.object (before ++ (.text key, node) :: after) true))
      (item.read next) := by
  simp only [read, entered]
  refine (readsThrough_foldlM ?_ before after _).bind _
  exact fun t => (ReadsThrough.refl (item.read next)).bind _

theorem readsThrough_valueItem (entered : source.enter = .ok next) (before after : List Node) :
    ReadsThrough (fun node => value.read source (.array (before ++ node :: after) true))
      (value.read next) := by
  simp only [read, Node.toValue_array]
  exact (readsThrough_item value entered before after).map _

theorem readsThrough_valueEntry (entered : source.enter = .ok next)
    (before after : List (Node × Node)) :
    ReadsThrough
      (fun node => value.read source (.object (before ++ (.text key, node) :: after) true))
      (value.read next) := by
  simp only [read, Node.toValue_object_eq_map]
  exact (readsThrough_entry value entered before after).map _

variable {type : String} {fields : Fields ρ σ} {field : Field}

theorem readsThrough_field {make : ρ → α} {view : α → ρ} (lawful : fields.IsLawful)
    (mem : field ∈ fields.all) (own : key ∈ field.name.all) (entered : source.enter = .ok next)
    (before after : List (Node × Node)) :
    ReadsThrough
      (fun node => (record type fields make view).read source
        (.object (before ++ (.text key, node) :: after) true))
      (field.schema.read next) := by
  simp only [read, entered]
  exact (Fields.readsThrough_collect lawful mem own next before after fields.blank).bind _

theorem readsThrough_element {make : ρ → α} {view : α → ρ} {firsts lasts : List Field}
    (all : fields.all = firsts ++ field :: lasts) {before : List Node}
    (length : before.length = firsts.length) (entered : source.enter = .ok next)
    (after : List Node) :
    ReadsThrough
      (fun node => (record type fields make view).read source
        (.array (before ++ node :: after) true))
      (field.schema.read next) := by
  simp only [read, entered, List.length_append, List.length_cons]
  exact (Fields.readsThrough_readItems all length next type fields.count true 0 after).bind _

/--
A part of an object that could be text instead is read twice: with the object as a value, and then
on its own.
-/
theorem readsThrough_aside {ofText : String → α} {make : ρ → α} {view : α → String ⊕ ρ}
    {name : FieldName} {absent : Option (Table Value)} (lawful : fields.IsLawful)
    (mem : ⟨name, absent, table value⟩ ∈ fields.all) (own : key ∈ name.all)
    (entered : source.enter = .ok next) (before after : List (Node × Node)) :
    ReadsThrough
      (fun node => (either type ofText fields make view).read source
        (.object (before ++ (.text key, node) :: after) true))
      (value.read next) := by
  intro node a result
  obtain ⟨_, known, result⟩ := exists_of_bind_eq_ok result
  obtain ⟨whole, known, _⟩ := exists_of_bind_eq_ok known
  dsimp only at result
  split at result
  next values parts =>
    obtain ⟨found, collected, finished⟩ := exists_of_bind_eq_ok parts
    obtain ⟨v, first, outer⟩ := readsThrough_valueEntry entered before after node whole known
    obtain ⟨t, second, inner⟩ := Fields.readsThrough_collect lawful mem own .buffer before after
      fields.blank node found collected
    -- Both times the part was read as the same table.
    have same : v = .object t := by
      have kept := node.toValue_buffer first
      rw [read_table_value_eq_ok_iff.mp second] at kept
      exact (Except.ok.inj kept).symm
    subst same
    refine ⟨.object t, first, ?_⟩
    intro other alike
    have known := outer other alike
    have collected := inner other (read_table_value_eq_ok_iff.mpr (other.toValue_buffer alike))
    simp only [read] at known ⊢
    rw [known]
    apply (bind_of_eq_ok rfl).trans
    rw [bind_of_eq_ok collected, finished]
    exact result
  next => cases result

/--
The places in documents that are read by a schema where objects are read by the schema `part`, those
inside of embedded values included. A document is given by the members of the object in this place;
there, the rest of it comes from `inner`.
-/
inductive Place : {α β : Type} → (part : Schema β) → (inner : Source) → Schema α → Source →
    (around : List (Node × Node) → Node) → Prop where
  | here {α : Type} (schema : Schema α) (source : Source) :
    Place schema source schema source fun members => .object members true
  | item {α β : Type} {part : Schema β} {item : Schema α} {inner source next : Source}
    {around : List (Node × Node) → Node} (inside : Place part inner item next around)
    (entered : source.enter = .ok next) (before after : List Node) :
    Place part inner (list item) source fun members =>
      .array (before ++ around members :: after) true
  | entry {α β : Type} {part : Schema β} {item : Schema α} {inner source next : Source}
    {around : List (Node × Node) → Node} (inside : Place part inner item next around)
    (entered : source.enter = .ok next) (key : String) (before after : List (Node × Node)) :
    Place part inner (table item) source fun members =>
      .object (before ++ (.text key, around members) :: after) true
  | optional {α β : Type} {part : Schema β} {item : Schema α} {inner source : Source}
    {around : List (Node × Node) → Node} (inside : Place part inner item source around) :
    Place part inner (optional item) source around
  | field {α β ρ σ : Type} {part : Schema β} {inner source next : Source} {type : String}
    {fields : Fields ρ σ} {make : ρ → α} {view : α → ρ} {around : List (Node × Node) → Node}
    {field : Field} (mem : field ∈ fields.all)
    (inside : Place part inner field.schema next around) (entered : source.enter = .ok next)
    {key : String} (own : key ∈ field.name.all) (before after : List (Node × Node)) :
    Place part inner (record type fields make view) source fun members =>
      .object (before ++ (.text key, around members) :: after) true
  /--
  A record as a list.
  -/
  | element {α β ρ σ : Type} {part : Schema β} {inner source next : Source} {type : String}
    {fields : Fields ρ σ} {make : ρ → α} {view : α → ρ} {around : List (Node × Node) → Node}
    {field : Field} {firsts lasts : List Field} (all : fields.all = firsts ++ field :: lasts)
    (inside : Place part inner field.schema next around) (entered : source.enter = .ok next)
    {before : List Node} (length : before.length = firsts.length) (after : List Node) :
    Place part inner (record type fields make view) source fun members =>
      .array (before ++ around members :: after) true
  /--
  In records that could be text instead, no field has objects inside but those with values.
  -/
  | aside {α β ρ σ : Type} {part : Schema β} {inner source next : Source} {type : String}
    {ofText : String → α} {fields : Fields ρ σ} {make : ρ → α} {view : α → String ⊕ ρ}
    {around : List (Node × Node) → Node} {name : FieldName} {absent : Option (Table Value)}
    (mem : ⟨name, absent, table value⟩ ∈ fields.all) (inside : Place part inner value next around)
    (entered : source.enter = .ok next) {key : String} (own : key ∈ name.all)
    (before after : List (Node × Node)) :
    Place part inner (either type ofText fields make view) source fun members =>
      .object (before ++ (.text key, around members) :: after) true
  | valueTable (source : Source) :
    Place (table value) source value source fun members => .object members true
  | valueItem {β : Type} {part : Schema β} {inner source next : Source}
    {around : List (Node × Node) → Node} (inside : Place part inner value next around)
    (entered : source.enter = .ok next) (before after : List Node) :
    Place part inner value source fun members => .array (before ++ around members :: after) true
  | valueEntry {β : Type} {part : Schema β} {inner source next : Source}
    {around : List (Node × Node) → Node} (inside : Place part inner value next around)
    (entered : source.enter = .ok next) (key : String) (before after : List (Node × Node)) :
    Place part inner value source fun members =>
      .object (before ++ (.text key, around members) :: after) true

namespace Place

variable {part : Schema β} {inner : Source} {schema : Schema α}
  {around : List (Node × Node) → Node}

theorem isLawful (place : Place part inner schema source around) (lawful : schema.IsLawful) :
    part.IsLawful := by
  induction place with
  | here => exact lawful
  | item _ _ _ _ ih => exact ih lawful
  | entry _ _ _ _ _ ih => exact ih lawful
  | optional _ ih => exact ih lawful.1
  | field mem _ _ _ _ _ ih => exact ih (lawful.1.schema_of_mem mem)
  | element all _ _ _ _ ih =>
    exact ih (lawful.1.schema_of_mem (all ▸ List.mem_append_right _ List.mem_cons_self))
  | aside _ _ _ _ _ _ ih => exact ih isLawful_value
  | valueTable => exact isLawful_table isLawful_value
  | valueItem _ _ _ _ ih => exact ih isLawful_value
  | valueEntry _ _ _ _ _ ih => exact ih isLawful_value

theorem around_ne_null (place : Place part inner schema source around)
    (members : List (Node × Node)) : around members ≠ .null := by
  induction place with
  | optional _ ih => exact ih
  | _ => exact nofun

/--
A document is read through the object in any place.
-/
theorem readsThrough (place : Place part inner schema source around) (lawful : schema.IsLawful) :
    ReadsThrough (fun members => schema.read source (around members))
      (fun members => part.read inner (.object members true)) := by
  induction place with
  | here => exact .refl _
  | item _ entered before after ih =>
    exact ((readsThrough_item _ entered before after).comp _).trans (ih lawful)
  | entry _ entered _ before after ih =>
    exact ((readsThrough_entry _ entered before after).comp _).trans (ih lawful)
  | optional inside ih =>
    simp only [read_optional (inside.around_ne_null _)]
    exact (ih lawful.1).map _
  | field mem _ entered own before after ih =>
    refine ((readsThrough_field lawful.1 mem own entered before after).comp _).trans ?_
    exact ih (lawful.1.schema_of_mem mem)
  | element all _ entered length after ih =>
    refine ((readsThrough_element all length entered after).comp _).trans (ih ?_)
    exact lawful.1.schema_of_mem (all ▸ List.mem_append_right _ List.mem_cons_self)
  | aside mem _ entered own before after ih =>
    refine ((readsThrough_aside lawful.1 mem own entered before after).comp _).trans ?_
    exact ih isLawful_value
  | valueTable source =>
    simp only [read, Node.toValue_object_eq_map]
    exact (ReadsThrough.refl _).map _
  | valueItem _ entered before after ih =>
    exact ((readsThrough_valueItem entered before after).comp _).trans (ih isLawful_value)
  | valueEntry _ entered _ before after ih =>
    exact ((readsThrough_valueEntry entered before after).comp _).trans (ih isLawful_value)

end Place

end Schema

end Stagecraft
