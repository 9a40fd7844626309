import Mathlib.Data.List.Forall2
import Stagecraft.Proofs.Document.Lawful

/-!
This module contains how the values of one schema are read as those of another: part by part, with
the same faults. A part that takes the place of another one in a document makes no difference if
both are read as the same value.
-/

namespace Stagecraft

theorem bind_eq_of_map_eq {α β γ ε : Type} {view : α → γ} {x y : Except ε α}
    {next : α → Except ε β} (h : view <$> x = view <$> y)
    (same : ∀ a b, view a = view b → next a = next b) : x >>= next = y >>= next := by
  cases x with
  | error =>
    cases y with
    | error =>
      cases h
      rfl
    | ok => cases h
  | ok a =>
    cases y with
    | error => cases h
    | ok b => exact same a b (Except.ok.inj h)

theorem map_mapError {α β ε δ : Type} (f : α → β) (g : ε → δ) (x : Except ε α) :
    f <$> x.mapError g = (f <$> x).mapError g := by
  cases x with
  | error => rfl
  | ok => rfl

namespace Schema

/--
Whether `other` reads what `schema` reads, with `f` applied to it.
-/
def Maps {α β : Type} (f : α → β) (schema : Schema α) (other : Schema β) : Prop :=
  ∀ source node, other.read source node = f <$> schema.read source node

end Schema

/--
Whether fields are read as `fields` are, with `f` applied to the values, and `g` to those that have
been found so far.
-/
structure Fields.Maps {ρ σ τ υ : Type} (f : ρ → τ) (g : σ → υ) (fields : Fields ρ σ)
    (other : Fields τ υ) : Prop where
  count : other.count = fields.count
  blank : other.blank = g fields.blank
  accept (source : Source) (name : String) (node : Node) (found : σ) :
    other.accept source name node (g found) =
      Option.map g <$> fields.accept source name node found
  finish (found : σ) : other.finish (g found) = f <$> fields.finish found
  readItems (source : Source) (type : String) (count : Nat) (closed : Bool) (taken : Nat)
    (items : List Node) :
    other.readItems source type count closed taken items =
      Prod.map f id <$> fields.readItems source type count closed taken items

namespace Fields

variable {α β ρ σ τ υ : Type}

theorem maps_refl (fields : Fields ρ σ) : fields.Maps id id fields where
  count := rfl
  blank := rfl
  accept _ _ _ _ := by simp
  finish _ := by simp
  readItems _ _ _ _ _ _ := by simp

theorem maps_cons {f : α → β} {g : ρ → τ} {h : σ → υ} {schema : Schema α} {other : Schema β}
    {rest : Fields ρ σ} {others : Fields τ υ} (same : schema.Maps f other)
    (rests : rest.Maps g h others) (name : FieldName) (absent : Option α)
    (omitted : α → Bool) (omitted' : β → Bool) :
    (cons name absent omitted schema rest).Maps (Prod.map f g) (Prod.map (Option.map f) h)
      (cons name (absent.map f) omitted' other others) where
  count := by rw [count, count, rests.count]
  blank := by rw [blank, blank, rests.blank]; rfl
  accept source key node found := by
    obtain ⟨slot, found⟩ := found
    rw [accept, Prod.map_apply, accept, same, rests.accept]
    split
    · cases slot with
      | some => rfl
      | none =>
        cases schema.read source node with
        | error => rfl
        | ok => rfl
    · cases rest.accept source key node found with
      | error => rfl
      | ok taken =>
        cases taken with
        | none => rfl
        | some => rfl
  finish found := by
    obtain ⟨slot, found⟩ := found
    rw [finish, Prod.map_apply, finish, rests.finish, ← Option.map_or]
    cases slot.or absent with
    | none => rfl
    | some a =>
      cases rest.finish found with
      | error => rfl
      | ok => rfl
  readItems source type total closed taken items := by
    cases items with
    | nil =>
      unfold readItems
      rw [rests.readItems]
      cases check (endFault closed .list) with
      | error => rfl
      | ok =>
        cases absent with
        | none => rfl
        | some a =>
          dsimp only [Option.map_some]
          cases rest.readItems source type total closed taken [] with
          | error => rfl
          | ok => rfl
    | cons node items =>
      rw [readItems, readItems, rests.readItems, same]
      cases schema.read source node with
      | error => rfl
      | ok a =>
        dsimp only
        cases rest.readItems source type total closed (taken + 1) items with
        | error => rfl
        | ok => rfl

theorem maps_required {f : α → β} {g : ρ → τ} {h : σ → υ} {schema : Schema α} {other : Schema β}
    {rest : Fields ρ σ} {others : Fields τ υ} (same : schema.Maps f other)
    (rests : rest.Maps g h others) (name : FieldName) :
    (required name schema rest).Maps (Prod.map f g) (Prod.map (Option.map f) h)
      (required name other others) :=
  maps_cons same rests name none _ _

theorem maps_defaulted {f : α → β} {g : ρ → τ} {h : σ → υ} {schema : Schema α} {other : Schema β}
    {rest : Fields ρ σ} {others : Fields τ υ} (same : schema.Maps f other)
    (rests : rest.Maps g h others) (name : FieldName) (default : α) :
    (defaulted name default schema rest).Maps (Prod.map f g) (Prod.map (Option.map f) h)
      (defaulted name (f default) other others) :=
  maps_cons same rests name (some default) _ _

end Fields

namespace Schema

variable {α β ρ σ τ υ : Type}

theorem maps_refl (schema : Schema α) : schema.Maps id schema := fun _ _ => by simp

variable {f : α → β} {item : Schema α} {other : Schema β}

theorem mapM_map (f : α → β) (read : Node → Except Fault α) (items : List Node) :
    (items.mapM fun node => f <$> read node) = List.map f <$> items.mapM read := by
  induction items with
  | nil => rfl
  | cons node rest ih =>
    rw [List.mapM_cons, List.mapM_cons, ih]
    cases read node with
    | error => rfl
    | ok =>
      cases rest.mapM read with
      | error => rfl
      | ok => rfl

theorem maps_list (same : item.Maps f other) : (list item).Maps (List.map f) (list other) := by
  intro source node
  cases node with
  | array items closed =>
    rw [read, read]
    cases source.enter with
    | error => rfl
    | ok inner =>
      dsimp only [bind, Except.bind]
      simp only [same inner, mapM_map]
      cases items.mapM (item.read inner) with
      | error => rfl
      | ok =>
        cases closed with
        | false => rfl
        | true => rfl
  | leaf => rfl
  | object => rfl
  | missing => rfl

theorem foldlM_map {γ : Type} {g : σ → υ} {step : σ → γ → Except Fault σ}
    {next : υ → γ → Except Fault υ} (same : ∀ s x, next (g s) x = g <$> step s x) (xs : List γ)
    (s : σ) : xs.foldlM next (g s) = g <$> xs.foldlM step s := by
  induction xs generalizing s with
  | nil => rfl
  | cons x rest ih =>
    rw [List.foldlM_cons, List.foldlM_cons, same]
    cases step s x with
    | error => rfl
    | ok s => exact ih s

theorem maps_table (same : item.Maps f other) :
    (table item).Maps (Entries.map fun _ => f) (table other) := by
  intro source node
  cases node with
  | object members closed =>
    rw [read, read]
    cases source.enter with
    | error => rfl
    | ok inner =>
      -- The tables before and after each member are related by `f`, whatever names they have.
      let step (before : Table α) (member : Node × Node) : Except Fault (Table α) := do
        let name ← member.1.name
        return before.insert name (← item.read inner member.2)
      let next (before : Table β) (member : Node × Node) : Except Fault (Table β) := do
        let name ← member.1.name
        return before.insert name (← other.read inner member.2)
      have natural (before : Table α) (member : Node × Node) :
          next (before.map fun _ => f) member =
            Entries.map (fun _ => f) <$> step before member := by
        unfold next step
        rw [same]
        cases member.1.name with
        | error => rfl
        | ok name =>
          cases item.read inner member.2 with
          | error => rfl
          | ok a => exact congrArg Except.ok (Table.map_insert before name a fun _ => f).symm
      have folded : members.foldlM next Table.empty =
          Entries.map (fun _ => f) <$> members.foldlM step Table.empty :=
        foldlM_map natural members Table.empty
      change (members.foldlM next Table.empty >>= _) =
        _ <$> (members.foldlM step Table.empty >>= _)
      rw [folded]
      cases members.foldlM step Table.empty with
      | error => rfl
      | ok =>
        cases closed with
        | false => rfl
        | true => rfl
  | leaf => rfl
  | array => rfl
  | missing => rfl

theorem maps_either {type : String} {ofText : String → α} {ofText' : String → β}
    {fields : Fields ρ σ} {make : ρ → α} {make' : ρ → β} {view : α → String ⊕ ρ}
    {view' : β → String ⊕ ρ} (text : ∀ s, ofText' s = f (ofText s))
    (made : ∀ values, make' values = f (make values)) :
    (either type ofText fields make view).Maps f (either type ofText' fields make' view') := by
  intro source node
  unfold read
  cases node.toValue source with
  | error => rfl
  | ok =>
    cases node with
    | leaf leaf =>
      cases leaf with
      | text s => exact congrArg Except.ok (text s)
      | _ => rfl
    | object members closed =>
      apply (bind_of_eq_ok rfl).trans
      dsimp only
      generalize (acceptAll (fun name node found => fields.accept .buffer name node found) members
        fields.blank >>= fields.finish) = found
      cases found with
      | error => rfl
      | ok values => exact congrArg Except.ok (made values)
    | array => rfl
    | missing => rfl

theorem acceptAll_map {g : σ → υ} {accept : String → Node → σ → Except Fault (Option σ)}
    {other : String → Node → υ → Except Fault (Option υ)}
    (same : ∀ name node found, other name node (g found) = Option.map g <$> accept name node found)
    (members : List (Node × Node)) (found : σ) :
    acceptAll other members (g found) = g <$> acceptAll accept members found := by
  induction members generalizing found with
  | nil => rfl
  | cons member rest ih =>
    obtain ⟨key, node⟩ := member
    rw [acceptAll, acceptAll]
    cases key.name with
    | error => rfl
    | ok name =>
      dsimp only [bind, Except.bind]
      rw [same]
      cases accept name node found with
      | error => rfl
      | ok taken =>
        cases taken with
        | some found => exact ih found
        | none =>
          dsimp only [Functor.map, Except.map, Option.map]
          cases check node.skipFault with
          | error => rfl
          | ok => exact ih found

theorem finishItems_map (g : ρ → τ) (source : Source) (length count : Nat) (closed : Bool)
    (values : ρ) (items : List Node) :
    finishItems source length count closed (g values) items =
      g <$> finishItems source length count closed values items := by
  unfold finishItems
  split
  · cases closed with
    | false => rfl
    | true => rfl
  · rfl
  · rfl

theorem maps_record {type : String} {fields : Fields ρ σ} {others : Fields τ υ} {g : ρ → τ}
    {h : σ → υ} {make : ρ → α} {make' : τ → β} {view : α → ρ} {view' : β → τ}
    (same : fields.Maps g h others) (made : ∀ values, make' (g values) = f (make values)) :
    (record type fields make view).Maps f (record type others make' view') := by
  intro source node
  cases node with
  | object members closed =>
    rw [read, read]
    cases source.enter with
    | error => rfl
    | ok inner =>
      have moved := acceptAll_map (same.accept inner) members fields.blank
      rw [← same.blank] at moved
      change (acceptAll _ members others.blank >>= _) =
        _ <$> (acceptAll _ members fields.blank >>= _)
      rw [moved]
      cases acceptAll (fun name node found => fields.accept inner name node found) members
        fields.blank with
      | error => rfl
      | ok found =>
        cases closed with
        | false => rfl
        | true =>
          change (others.finish (h found) >>= _) = _ <$> (fields.finish found >>= _)
          rw [same.finish]
          cases fields.finish found with
          | error => rfl
          | ok values => exact congrArg Except.ok (made values)
  | array items closed =>
    rw [read, read]
    cases source.enter with
    | error => rfl
    | ok inner =>
      change (others.readItems inner type others.count closed 0 items >>= _) =
        _ <$> (fields.readItems inner type fields.count closed 0 items >>= _)
      rw [same.count, same.readItems]
      cases fields.readItems inner type fields.count closed 0 items with
      | error => rfl
      | ok result =>
        obtain ⟨values, rest⟩ := result
        change (finishItems source items.length fields.count closed (g values) rest >>= _) =
          _ <$> (finishItems source items.length fields.count closed values rest >>= _)
        rw [finishItems_map]
        cases finishItems source items.length fields.count closed values rest with
        | error => rfl
        | ok values => exact congrArg Except.ok (made values)
  | leaf => rfl
  | missing => rfl

theorem Maps.decode {schema : Schema α} (same : schema.Maps f other) (text : String) :
    other.decode text = f <$> schema.decode text := by
  unfold Schema.decode
  obtain ⟨root, trailing⟩ := Node.ofText text
  dsimp only
  rw [same]
  cases schema.read (.text Source.limit) root with
  | error => rfl
  | ok =>
    cases trailing with
    | false => rfl
    | true => rfl

end Schema

namespace Node

/--
Two lists of which each item is related to the one in the same place of the other.
-/
inductive Itemwise (r : Node → Node → Prop) : Node → Node → Prop where
  | same (node : Node) : Itemwise r node node
  | array {items others : List Node} (h : List.Forall₂ r items others) (closed : Bool) :
    Itemwise r (.array items closed) (.array others closed)

/--
Two objects with the same names of which each member is related to the one in the same place of the
other.
-/
inductive Memberwise (r : Node → Node → Prop) : Node → Node → Prop where
  | same (node : Node) : Memberwise r node node
  | object {members others : List (Node × Node)}
    (h : List.Forall₂ (fun member other => member.1 = other.1 ∧ r member.2 other.2) members others)
    (closed : Bool) : Memberwise r (.object members closed) (.object others closed)

end Node

section Congruence

variable {α ρ σ : Type} {r : Node → Node → Prop} {item : Schema α} {source : Source}
  {node other : Node}

theorem mapM_congr_of_forall₂ {f : Node → Except Fault α} {items others : List Node}
    (h : List.Forall₂ (fun item other => f item = f other) items others) :
    items.mapM f = others.mapM f := by
  induction h with
  | nil => rfl
  | cons first _ ih => rw [List.mapM_cons, List.mapM_cons, first, ih]

theorem foldlM_congr_of_forall₂ {f : σ → Node × Node → Except Fault σ}
    {members others : List (Node × Node)}
    (h : List.Forall₂ (fun member other => ∀ s, f s member = f s other) members others) (s : σ) :
    members.foldlM f s = others.foldlM f s := by
  induction h generalizing s with
  | nil => rfl
  | cons first _ ih =>
    rw [List.foldlM_cons, List.foldlM_cons, first]
    exact congrArg (_ >>= ·) (funext ih)

theorem Schema.read_list_congr (h : Node.Itemwise r node other)
    (same : ∀ inner, source.enter = .ok inner → ∀ n n', r n n' →
      item.read inner n = item.read inner n') :
    (list item).read source node = (list item).read source other := by
  cases h with
  | same => rfl
  | array h closed =>
    rw [read, read]
    cases entered : source.enter with
    | error => rfl
    | ok inner =>
      dsimp only [bind, Except.bind]
      rw [mapM_congr_of_forall₂ (h.imp fun _ _ => same inner entered _ _)]

theorem Schema.read_table_congr (h : Node.Memberwise r node other)
    (same : ∀ inner, source.enter = .ok inner → ∀ n n', r n n' →
      item.read inner n = item.read inner n') :
    (table item).read source node = (table item).read source other := by
  cases h with
  | same => rfl
  | object h closed =>
    rw [read, read]
    cases entered : source.enter with
    | error => rfl
    | ok inner =>
      dsimp only [bind, Except.bind]
      rw [foldlM_congr_of_forall₂ (h.imp _)]
      rintro ⟨key, node⟩ ⟨_, other⟩ ⟨rfl, related⟩ before
      dsimp only at related
      rw [same inner entered node other related]

/--
Fields that take two documents with a name in the same way, and have a use for them.
-/
def Fields.TakesAlike (fields : Fields ρ σ) (source : Source) (name : String)
    (node other : Node) : Prop :=
  ∀ found, fields.accept source name node found ≠ .ok none ∧
    fields.accept source name node found = fields.accept source name other found

theorem Fields.takesAlike_cons {name : FieldName} {absent : Option α} {omitted : α → Bool}
    {schema : Schema α} {rest : Fields ρ σ} {key : String} (foreign : key ∉ name.all)
    (h : rest.TakesAlike source key node other) :
    (cons name absent omitted schema rest).TakesAlike source key node other := by
  rintro ⟨slot, found⟩
  obtain ⟨taken, same⟩ := h found
  rw [accept, accept, if_neg (mt List.mem_cons.mpr foreign), if_neg (mt List.mem_cons.mpr foreign),
    ← same]
  refine ⟨?_, rfl⟩
  cases known : rest.accept source key node found with
  | error => exact nofun
  | ok more =>
    cases more with
    | none => exact absurd known taken
    | some => exact nofun

theorem Fields.takesAlike_own {name : FieldName} {absent : Option α} {omitted : α → Bool}
    {schema : Schema α} {rest : Fields ρ σ} {key : String} (own : key ∈ name.all)
    (same : schema.read source node = schema.read source other) :
    (cons name absent omitted schema rest).TakesAlike source key node other := by
  rintro ⟨slot, found⟩
  rw [accept, accept, if_pos (List.mem_cons.mp own), if_pos (List.mem_cons.mp own), same]
  refine ⟨?_, rfl⟩
  cases slot with
  | some => exact nofun
  | none =>
    cases schema.read source other with
    | error => exact nofun
    | ok => exact nofun

theorem acceptAll_congr {accept : String → Node → σ → Except Fault (Option σ)}
    {members others : List (Node × Node)}
    (h : List.Forall₂ (fun member other => member = other ∨
      ∃ name, member.1 = .text name ∧ other.1 = .text name ∧
        ∀ found, accept name member.2 found ≠ .ok none ∧
          accept name member.2 found = accept name other.2 found) members others) (found : σ) :
    acceptAll accept members found = acceptAll accept others found := by
  induction h generalizing found with
  | nil => rfl
  | @cons member other rest rests first _ ih =>
    obtain ⟨key, node⟩ := member
    obtain rfl | ⟨name, rfl, same, alike⟩ := first
    · rw [acceptAll, acceptAll]
      simp only [ih]
    · obtain ⟨_, other⟩ := other
      dsimp only at same alike
      subst same
      obtain ⟨taken, same⟩ := alike found
      rw [acceptAll, acceptAll, Node.name]
      dsimp only [bind, Except.bind]
      rw [← same]
      cases known : accept name node found with
      | error => rfl
      | ok more =>
        cases more with
        | none => exact absurd known taken
        | some found => exact ih found

theorem Schema.read_record_congr {type : String} {fields : Fields ρ σ} {make : ρ → α}
    {view : α → ρ} {members others : List (Node × Node)} {closed : Bool}
    (h : ∀ inner, source.enter = .ok inner → List.Forall₂ (fun member other => member = other ∨
      ∃ name, member.1 = .text name ∧ other.1 = .text name ∧
        fields.TakesAlike inner name member.2 other.2) members others) :
    (record type fields make view).read source (.object members closed) =
      (record type fields make view).read source (.object others closed) := by
  rw [read, read]
  cases entered : source.enter with
  | error => rfl
  | ok inner =>
    dsimp only [bind, Except.bind]
    rw [acceptAll_congr (h inner entered)]

theorem Fields.readItems_cons_congr {name : FieldName} {absent : Option α} {omitted : α → Bool}
    {schema : Schema α} {rest : Fields ρ σ} {type : String} {count taken : Nat} {closed : Bool}
    {items others : List Node} (first : schema.read source node = schema.read source other)
    (later : rest.readItems source type count closed (taken + 1) items =
      rest.readItems source type count closed (taken + 1) others) :
    (cons name absent omitted schema rest).readItems source type count closed taken
        (node :: items) =
      (cons name absent omitted schema rest).readItems source type count closed taken
        (other :: others) := by
  rw [readItems, readItems, first, later]

theorem Schema.read_record_items_congr {type : String} {fields : Fields ρ σ} {make : ρ → α}
    {view : α → ρ} {items others : List Node} {closed : Bool}
    (length : items.length = others.length)
    (h : ∀ inner, source.enter = .ok inner →
      fields.readItems inner type fields.count closed 0 items =
        fields.readItems inner type fields.count closed 0 others) :
    (record type fields make view).read source (.array items closed) =
      (record type fields make view).read source (.array others closed) := by
  rw [read, read]
  cases entered : source.enter with
  | error => rfl
  | ok inner =>
    dsimp only [bind, Except.bind]
    rw [h inner entered, length]

theorem Schema.decode_congr {schema : Schema α} {text text' : String} {trailing : Bool}
    (parsed : Node.ofText text = (node, trailing)) (parsed' : Node.ofText text' = (other, trailing))
    (same : schema.read (.text Source.limit) node = schema.read (.text Source.limit) other) :
    schema.decode text = schema.decode text' := by
  unfold decode
  rw [parsed, parsed']
  dsimp only
  rw [same]

end Congruence

end Stagecraft
