import Stagecraft.Proofs.Decimal.Double
import Stagecraft.Proofs.Document.RoundTrip

/-!
This module contains what holds of every value that could be read by a lawful schema: there is a
text for it with no more in it than the value, and it will be read again as it is if its doubles
are.
-/

namespace Stagecraft

theorem acceptAll_induction {σ : Type} {accept : String → Node → σ → Except Fault (Option σ)}
    {motive : σ → Prop} {members : List (Node × Node)} {found last : σ}
    (read : acceptAll accept members found = .ok last) (start : motive found)
    (step : ∀ member ∈ members, ∀ name found more, accept name member.2 found = .ok (some more) →
      motive found → motive more) : motive last := by
  induction members generalizing found with
  | nil =>
    cases read
    exact start
  | cons member rest ih =>
    obtain ⟨one, all⟩ := List.forall_mem_cons.mp step
    obtain ⟨name, _, read⟩ := exists_of_bind_eq_ok read
    obtain ⟨taken, accepted, read⟩ := exists_of_bind_eq_ok read
    cases taken with
    | none =>
      obtain ⟨_, _, read⟩ := exists_of_bind_eq_ok read
      exact ih read start all
    | some more => exact ih read (one name found more accepted start) all

theorem mapM_induction {α β ε : Type} {f : α → Except ε β} {p : β → Prop} {xs : List α}
    {ys : List β} (read : xs.mapM f = .ok ys) (h : ∀ x ∈ xs, ∀ y, f x = .ok y → p y) :
    ∀ y ∈ ys, p y := by
  induction xs generalizing ys with
  | nil =>
    cases read
    exact List.forall_mem_nil _
  | cons x rest ih =>
    obtain ⟨one, all⟩ := List.forall_mem_cons.mp h
    rw [List.mapM_cons] at read
    obtain ⟨y, first, read⟩ := exists_of_bind_eq_ok read
    obtain ⟨others, found, read⟩ := exists_of_bind_eq_ok read
    cases read
    exact List.forall_mem_cons.mpr ⟨one y first, ih found all⟩

theorem foldlM_induction {α β ε : Type} {f : β → α → Except ε β} {motive : β → Prop} {xs : List α}
    {start last : β} (read : xs.foldlM f start = .ok last) (h : motive start)
    (step : ∀ x ∈ xs, ∀ y z, f y x = .ok z → motive y → motive z) : motive last := by
  induction xs generalizing start with
  | nil =>
    cases read
    exact h
  | cons x rest ih =>
    obtain ⟨one, all⟩ := List.forall_mem_cons.mp step
    rw [List.foldlM_cons] at read
    obtain ⟨next, first, read⟩ := exists_of_bind_eq_ok read
    exact ih read (one start next first h) all

namespace Schema

variable {α ρ σ : Type} {room : Nat}

theorem Fits.mono {schema : Schema α} {less : Nat} {a : α} (h : schema.Fits less a)
    (le : less ≤ room) : schema.Fits room a :=
  ⟨h.finite, Nat.le_trans h.nesting_le le, h.spelled⟩

theorem fits_text (s : String) : text.Fits room s :=
  ⟨trivial, Nat.zero_le room, Node.eachNumber_text s⟩

theorem fits_flag (b : Bool) : flag.Fits room b :=
  ⟨trivial, Nat.zero_le room, Node.eachNumber_flag b⟩

theorem fits_choice {all : List α} {name : α → String} (a : α) : (choice all name).Fits room a :=
  ⟨trivial, Nat.zero_le room, Node.eachNumber_text (name a)⟩

theorem fits_index (n : UInt64) : index.Fits room n :=
  ⟨trivial, Nat.zero_le room, Node.eachNumber_number_iff.mpr (Number.isSpelled_integer _)⟩

theorem fits_real {x : Float} (finite : x.isFinite = true)
    (spelled : (Number.real x finite).IsSpelled) : real.Fits room x :=
  ⟨finite, (Node.nesting_ofFloat x).trans_le (Nat.zero_le room),
    Node.eachNumber_ofFloat fun _ => spelled⟩

theorem fits_list {item : Schema α} {items : List α} (h : ∀ a ∈ items, item.Fits room a) :
    (list item).Fits (room + 1) items := by
  refine ⟨fun a mem => (h a mem).finite, Nat.succ_le_succ ?_, .array ?_⟩
  · rw [Node.nestingItems_le_iff, List.forall_mem_map]
    exact fun a mem => (h a mem).nesting_le
  · rw [List.forall_mem_map]
    exact fun a mem => (h a mem).spelled

theorem fits_table {item : Schema α} {t : Table α}
    (h : ∀ name a, t.get? name = some a → item.Fits room a) : (table item).Fits (room + 1) t := by
  have parts (pair : String × α) (mem : pair ∈ t.toList) : item.Fits room pair.2 :=
    h pair.1 pair.2 (Entries.mem_toList_iff.mp mem)
  refine ⟨fun name a known => (h name a known).finite, Nat.succ_le_succ ?_, .object ?_⟩
  · rw [Node.nestingMembers_le_iff, List.forall_mem_map]
    exact fun pair mem => (parts pair mem).nesting_le
  · rw [List.forall_mem_map]
    exact fun pair mem => (parts pair mem).spelled

theorem fits_none (item : Schema α) : (optional item).Fits room none := by
  refine ⟨?_, Nat.zero_le room, Node.eachNumber_null⟩
  intro b same
  cases same

theorem fits_some {item : Schema α} {a : α} (h : item.Fits room a) :
    (optional item).Fits room (some a) := by
  refine ⟨?_, h.nesting_le, h.spelled⟩
  intro b same
  cases same
  exact h.finite

end Schema

/--
Whether there can be a text for the values of fields, with `room` for so many containers.
-/
structure Fields.Fit {ρ σ : Type} (fields : Fields ρ σ) (room : Nat) (values : ρ) : Prop where
  finite : fields.IsFinite values
  nesting_le : Node.nestingMembers (fields.write values) ≤ room
  spelled : ∀ member ∈ fields.write values, member.2.EachNumber Number.IsSpelled

/--
Whether there can be a text for the values that have been found.
-/
def Fields.FoundFit : {ρ σ : Type} → Fields ρ σ → (room : Nat) → σ → Prop
  | _, _, .nil, _, _ => True
  | _, _, .cons _ _ _ schema rest, room, (slot, others) =>
    (∀ a, slot = some a → schema.Fits room a) ∧ rest.FoundFit room others

namespace Fields

variable {α ρ σ : Type} {room : Nat}

theorem foundFit_blank {ρ σ : Type} (fields : Fields ρ σ) (room : Nat) :
    fields.FoundFit room fields.blank := by
  cases fields with
  | nil => trivial
  | cons _ _ _ _ rest =>
    refine ⟨?_, rest.foundFit_blank room⟩
    intro a known
    cases known

theorem fit_nil (room : Nat) : nil.Fit room () :=
  ⟨trivial, Nat.zero_le room, List.forall_mem_nil _⟩

theorem fit_cons {name : FieldName} {absent : Option α} {omitted : α → Bool} {schema : Schema α}
    {rest : Fields ρ σ} {a : α} {values : ρ} (first : schema.Fits room a)
    (others : rest.Fit room values) :
    (cons name absent omitted schema rest).Fit room (a, values) := by
  refine ⟨⟨first.finite, others.finite⟩, ?_, ?_⟩
  · rw [write]
    split
    · exact others.nesting_le
    · exact Nat.max_le.mpr ⟨first.nesting_le, others.nesting_le⟩
  · rw [write]
    split
    · exact others.spelled
    · exact List.forall_mem_cons.mpr ⟨first.spelled, others.spelled⟩

theorem fit_of_finish {ρ σ : Type} (fields : Fields ρ σ) (h : fields.IsLawful) {found : σ}
    {values : ρ} (finished : fields.finish found = .ok values) (known : fields.FoundFit room found)
    (height : fields.height ≤ room) : fields.Fit room values := by
  match fields, found, values with
  | .nil, _, _ => exact fit_nil room
  | .cons _ absent _ schema rest, (slot, others), values =>
    obtain ⟨_, lawful, _, _, fits⟩ := h
    obtain ⟨le, height⟩ := Nat.max_le.mp height
    unfold finish at finished
    cases taken : slot.or absent with
    | none =>
      rw [taken] at finished
      cases finished
    | some a =>
      rw [taken] at finished
      obtain ⟨values, found, finished⟩ := exists_of_bind_eq_ok finished
      cases finished
      apply fit_cons _ (rest.fit_of_finish lawful found known.2 height)
      rcases Option.or_eq_some_iff.mp taken with same | ⟨_, same⟩
      · exact known.1 a same
      · exact (fits a same).mono le

end Fields

namespace Schema

variable {α ρ σ : Type} {room : Nat}

theorem fits_record {type : String} {fields : Fields ρ σ} {make : ρ → α} {view : α → ρ} {a : α}
    (h : fields.Fit room (view a)) : (record type fields make view).Fits (room + 1) a :=
  ⟨h.finite, Nat.succ_le_succ h.nesting_le, .object h.spelled⟩

theorem fits_either_text {type : String} {ofText : String → α} {fields : Fields ρ σ} {make : ρ → α}
    {view : α → String ⊕ ρ} (text_iff : ∀ a s, view a = .inl s ↔ ofText s = a) (s : String) :
    (either type ofText fields make view).Fits room (ofText s) := by
  have same : view (ofText s) = .inl s := (text_iff _ _).mpr rfl
  refine ⟨?_, ?_, ?_⟩
  · intro values other
    rw [same] at other
    cases other
  · rw [write, same]
    exact Nat.zero_le room
  · rw [write, same]
    exact Node.eachNumber_text s

theorem fits_either_record {type : String} {ofText : String → α} {fields : Fields ρ σ}
    {make : ρ → α} {view : α → String ⊕ ρ}
    (view_iff : ∀ a values, view a = .inr values ↔ make values = a) {values : ρ}
    (h : fields.Fit room values) :
    (either type ofText fields make view).Fits (room + 1) (make values) := by
  have same : view (make values) = .inr values := (view_iff _ _).mpr rfl
  refine ⟨?_, ?_, ?_⟩
  · intro others other
    rw [same] at other
    cases other
    exact h.finite
  · rw [write, same]
    exact Nat.succ_le_succ h.nesting_le
  · rw [write, same]
    exact .object h.spelled

end Schema

/--
Whether there can be a text for a value that one of the alternatives is for.
-/
structure Variants.Fit {α : Type} (variants : Variants α) (tag : String) (room : Nat) (a : α) :
    Prop where
  makes : variants.Makes a
  finite : variants.IsFinite a
  nesting_le : Node.nestingMembers (variants.write tag a) ≤ room
  spelled : ∀ member ∈ variants.write tag a, member.2.EachNumber Number.IsSpelled

namespace Variants

variable {α ρ σ : Type} {tag name type : String} {fields : Fields ρ σ} {make : ρ → α}
  {view : α → Option ρ} {rest : Variants α} {room : Nat}

theorem fit_first (view_iff : ∀ a values, view a = some values ↔ make values = a) {values : ρ}
    (h : fields.Fit room values) :
    (cons name type fields make view rest).Fit tag room (make values) := by
  have same : view (make values) = some values := (view_iff _ _).mpr rfl
  refine ⟨.inl ⟨values, rfl⟩, ?_, ?_, ?_⟩
  · rw [IsFinite, same]
    exact h.finite
  · rw [write, same]
    exact Nat.max_le.mpr ⟨Nat.zero_le room, h.nesting_le⟩
  · rw [write, same]
    exact List.forall_mem_cons.mpr ⟨Node.eachNumber_text name, h.spelled⟩

theorem fit_later (distinct : ∀ a, rest.Makes a → view a = none) {a : α}
    (h : rest.Fit tag room a) : (cons name type fields make view rest).Fit tag room a := by
  have other : view a = none := distinct a h.makes
  refine ⟨.inr h.makes, ?_, ?_, ?_⟩
  · rw [IsFinite, other]
    exact h.finite
  · rw [write, other]
    exact h.nesting_le
  · rw [write, other]
    exact h.spelled

end Variants

theorem Schema.fits_tagged {α : Type} {type tag : String} {variants : Variants α} {room : Nat}
    {a : α} (h : variants.Fit tag room a) : (tagged type tag variants).Fits (room + 1) a :=
  ⟨h.finite, Nat.succ_le_succ h.nesting_le, .object h.spelled⟩

theorem exists_of_discard_eq_ok {α ε : Type} {result : Except ε α}
    (h : discard result = .ok ()) : ∃ a, result = .ok a := by
  cases result with
  | ok a => exact ⟨a, rfl⟩
  | error => cases h

/--
What is known of a document from which values are read, so that there is a text with `room` for as
many containers for each of them.
-/
structure Node.Offers (node : Node) (source : Source) (room : Nat) : Prop where
  within : source.Within room node.nesting
  spelled : node.EachNumber Number.IsSpelled

namespace Node.Offers

variable {node : Node} {source inner : Source} {room : Nat} {items : List Node}
  {members : List (Node × Node)} {closed : Bool} {value : Value}

/--
A document that could be read as a value can be set aside.
-/
theorem buffer (h : node.Offers source room) (read : node.toValue source = .ok value) :
    node.Offers .buffer room :=
  ⟨(node.nesting_of_toValue read h.within).1, h.spelled⟩

theorem forall_item (h : (Node.array items closed).Offers source room)
    (entered : source.enter = .ok inner) :
    ∃ less, room = less + 1 ∧ ∀ item ∈ items, item.Offers inner less := by
  obtain ⟨less, rfl, inside⟩ := h.within.exists_of_enter entered
  have spelled := eachNumber_array_iff.mp h.spelled
  exact ⟨less, rfl, fun item mem => ⟨within_item inside mem, spelled item mem⟩⟩

theorem forall_member (h : (Node.object members closed).Offers source room)
    (entered : source.enter = .ok inner) :
    ∃ less, room = less + 1 ∧ ∀ member ∈ members, member.2.Offers inner less := by
  obtain ⟨less, rfl, inside⟩ := h.within.exists_of_enter entered
  have spelled := eachNumber_object_iff.mp h.spelled
  exact ⟨less, rfl, fun member mem => ⟨within_member inside mem, spelled member mem⟩⟩

end Node.Offers

theorem offers_of_splitTag {tag : String} {names : List String} {source : Source} {room : Nat}
    {members others : List (Node × Node)} {before found : Option String}
    (split : splitTag tag names source members before = .ok (found, others))
    (h : ∀ member ∈ members, member.2.Offers source room) :
    ∀ member ∈ others, member.2.Offers .buffer room := by
  induction members generalizing before others with
  | nil =>
    cases split
    exact List.forall_mem_nil _
  | cons member rest ih =>
    obtain ⟨key, node⟩ := member
    obtain ⟨one, all⟩ := List.forall_mem_cons.mp h
    obtain ⟨name, _, split⟩ := exists_of_bind_eq_ok split
    split at split
    · split at split
      · cases split
      · obtain ⟨_, _, split⟩ := exists_of_bind_eq_ok split
        obtain ⟨_, _, split⟩ := exists_of_bind_eq_ok split
        exact ih split all
    · obtain ⟨_, read, split⟩ := exists_of_bind_eq_ok split
      obtain ⟨⟨_, tail⟩, known, split⟩ := exists_of_bind_eq_ok split
      cases split
      obtain ⟨value, read⟩ := exists_of_discard_eq_ok read
      exact List.forall_mem_cons.mpr ⟨one.buffer read, ih known all⟩

theorem offers_of_forM {source : Source} {room : Nat} {items : List Node}
    (read : items.forM (fun item => discard (item.toValue source)) = .ok ())
    (h : ∀ item ∈ items, item.Offers source room) : ∀ item ∈ items, item.Offers .buffer room := by
  intro item mem
  obtain ⟨value, read⟩ := exists_of_discard_eq_ok (forM_eq_ok_iff.mp read item mem)
  exact (h item mem).buffer read

theorem eq_of_finishItems {ρ : Type} {source : Source} {length count : Nat} {closed : Bool}
    {values others : ρ} {left : List Node}
    (h : finishItems source length count closed values left = .ok others) : others = values := by
  unfold finishItems at h
  split at h
  · obtain ⟨_, _, same⟩ := exists_of_bind_eq_ok h
    cases same
    rfl
  · cases h
  · cases h

theorem Fields.foundFit_of_collect {ρ σ : Type} {fields : Fields ρ σ} {source : Source} {room : Nat}
    {members : List (Node × Node)} {found : σ}
    (collected : fields.collect source members fields.blank = .ok found)
    (offers : ∀ member ∈ members, member.2.Offers source room)
    (step : ∀ {name node found more}, fields.accept source name node found = .ok (some more) →
      node.Offers source room → fields.FoundFit room found → fields.FoundFit room more) :
    fields.FoundFit room found := by
  apply acceptAll_induction collected (fields.foundFit_blank room)
  intro member mem name found more accepted known
  exact step accepted (offers member mem) known

namespace Schema

variable {α ρ σ : Type} {type : String} {fields : Fields ρ σ} {make : ρ → α} {source : Source}
  {node : Node} {a : α}

/--
What a record is read from: an object, the members of which are offered to its fields, or a list
with the values of its fields in their order.
-/
theorem read_record_cases {view : α → ρ}
    (read : (record type fields make view).read source node = .ok a) :
    ∃ inner values, source.enter = .ok inner ∧ make values = a ∧
      ((∃ members closed found, node = .object members closed ∧
        fields.collect inner members fields.blank = .ok found ∧
        fields.finish found = .ok values) ∨
      ∃ items closed left, node = .array items closed ∧
        fields.readItems inner type fields.count closed 0 items = .ok (values, left)) := by
  unfold Schema.read at read
  split at read
  next members closed =>
    obtain ⟨inner, entered, read⟩ := exists_of_bind_eq_ok read
    obtain ⟨found, collected, read⟩ := exists_of_bind_eq_ok read
    obtain ⟨_, _, read⟩ := exists_of_bind_eq_ok read
    obtain ⟨values, finished, read⟩ := exists_of_bind_eq_ok read
    cases read
    exact ⟨inner, values, entered, rfl, .inl ⟨members, closed, found, rfl, collected, finished⟩⟩
  next items closed =>
    obtain ⟨inner, entered, read⟩ := exists_of_bind_eq_ok read
    obtain ⟨⟨values, left⟩, found, read⟩ := exists_of_bind_eq_ok read
    obtain ⟨others, finished, read⟩ := exists_of_bind_eq_ok read
    cases eq_of_finishItems finished
    cases read
    exact ⟨inner, values, entered, rfl, .inr ⟨items, closed, left, rfl, found⟩⟩
  · cases read

/--
What a tagged record is read from: an object with the tag somewhere in it, or a list with the tag in
front. The rest of either has been taken as values before it is known what it is to be read as.
-/
theorem read_tagged_cases {tag : String} {variants : Variants α}
    (read : (tagged type tag variants).read source node = .ok a) :
    ∃ inner name, source.enter = .ok inner ∧
      ((∃ members closed others, node = .object members closed ∧
        splitTag tag variants.names inner members none = .ok (some name, others) ∧
        variants.readObject name others = .ok a) ∨
      ∃ first rest closed, node = .array (first :: rest) closed ∧
        rest.forM (fun item => discard (item.toValue inner)) = .ok () ∧
        variants.readList name rest = .ok a) := by
  unfold Schema.read at read
  split at read
  next members closed =>
    obtain ⟨inner, entered, read⟩ := exists_of_bind_eq_ok read
    obtain ⟨⟨found, others⟩, divided, read⟩ := exists_of_bind_eq_ok read
    obtain ⟨_, _, read⟩ := exists_of_bind_eq_ok read
    cases found with
    | none => cases read
    | some name =>
      exact ⟨inner, name, entered, .inl ⟨members, closed, others, rfl, divided, read⟩⟩
  next items closed =>
    obtain ⟨inner, entered, read⟩ := exists_of_bind_eq_ok read
    cases items with
    | nil => cases read
    | cons first rest =>
      obtain ⟨tagged, _, read⟩ := exists_of_bind_eq_ok read
      obtain ⟨name, _, read⟩ := exists_of_bind_eq_ok read
      obtain ⟨_, values, read⟩ := exists_of_bind_eq_ok read
      obtain ⟨_, _, read⟩ := exists_of_bind_eq_ok read
      exact ⟨inner, name, entered, .inr ⟨first, rest, closed, rfl, values, read⟩⟩
  · cases read

/--
What a text or a record in its place is read from. An object has been taken as a value before.
-/
theorem read_either_cases {ofText : String → α} {view : α → String ⊕ ρ}
    (read : (either type ofText fields make view).read source node = .ok a) :
    (∃ value, node.toValue source = .ok value) ∧
      ((∃ s, node = .text s ∧ ofText s = a) ∨
      ∃ members closed found values, node = .object members closed ∧
        fields.collect .buffer members fields.blank = .ok found ∧
        fields.finish found = .ok values ∧ make values = a) := by
  unfold Schema.read at read
  obtain ⟨_, known, made⟩ := exists_of_bind_eq_ok read
  refine ⟨exists_of_discard_eq_ok known, ?_⟩
  clear read known
  split at made
  next s =>
    cases made
    exact .inl ⟨s, rfl, rfl⟩
  next members closed =>
    dsimp only at made
    split at made
    next values result =>
      cases made
      obtain ⟨found, collected, finished⟩ := exists_of_bind_eq_ok result
      exact .inr ⟨members, closed, found, values, rfl, collected, finished, rfl⟩
    · cases made
  · cases made

end Schema

mutual

/--
There is a text for a value that was read, with no more containers than it was read from.
-/
theorem Schema.fits_of_read {α : Type} (schema : Schema α) (h : schema.IsLawful) {source : Source}
    {room : Nat} {node : Node} {a : α} (read : schema.read source node = .ok a)
    (offers : node.Offers source room) (height : schema.height ≤ room) :
    schema.Fits room a := by
  match schema, a with
  | .text, s => exact Schema.fits_text s
  | .flag, b => exact Schema.fits_flag b
  | .index, n => exact Schema.fits_index n
  | .choice _ _, a => exact Schema.fits_choice a
  | .real, x =>
    unfold Schema.read at read
    split at read
    next n =>
      cases read
      have spelled : n.IsSpelled := Node.eachNumber_number_iff.mp offers.spelled
      exact Schema.fits_real n.isFinite_toFloat spelled.toFloat
    · cases read
  | .value, _ =>
    exact ⟨trivial, (Node.nesting_of_toValue node read offers.within).2,
      Node.eachNumber_of_toValue node read offers.spelled⟩
  | .list item, _ =>
    unfold Schema.read at read
    split at read
    next items closed =>
      obtain ⟨inner, entered, read⟩ := exists_of_bind_eq_ok read
      obtain ⟨values, found, read⟩ := exists_of_bind_eq_ok read
      obtain ⟨_, _, read⟩ := exists_of_bind_eq_ok read
      cases read
      obtain ⟨less, rfl, parts⟩ := offers.forall_item entered
      apply Schema.fits_list
      refine mapM_induction found ?_
      intro part mem a read
      exact item.fits_of_read h read (parts part mem) (Nat.le_of_succ_le_succ height)
    · cases read
  | .table item, _ =>
    unfold Schema.read at read
    split at read
    next members closed =>
      obtain ⟨inner, entered, read⟩ := exists_of_bind_eq_ok read
      obtain ⟨t, found, read⟩ := exists_of_bind_eq_ok read
      obtain ⟨_, _, read⟩ := exists_of_bind_eq_ok read
      cases read
      obtain ⟨less, rfl, parts⟩ := offers.forall_member entered
      apply Schema.fits_table
      apply foldlM_induction found
      · intro name a known
        cases known
      · intro member mem before after read known name a same
        obtain ⟨key, _, read⟩ := exists_of_bind_eq_ok read
        obtain ⟨value, one, read⟩ := exists_of_bind_eq_ok read
        cases read
        rw [Table.get?_insert] at same
        split at same
        · cases same
          exact item.fits_of_read h one (parts member mem) (Nat.le_of_succ_le_succ height)
        · exact known name a same
    · cases read
  | .optional item, none => exact Schema.fits_none item
  | .optional item, some a =>
    unfold Schema.read at read
    split at read
    · cases read
    · obtain ⟨b, read, same⟩ := map_eq_ok_iff.mp read
      cases same
      exact Schema.fits_some (item.fits_of_read h.1 read offers height)
  | .record _ fields _ _, _ =>
    obtain ⟨lawful, view_iff⟩ := h
    obtain ⟨inner, values, entered, rfl, parts⟩ := Schema.read_record_cases read
    rcases parts with ⟨members, closed, found, rfl, collected, finished⟩ |
      ⟨items, closed, left, rfl, found⟩
    · obtain ⟨less, rfl, parts⟩ := offers.forall_member entered
      have height := Nat.le_of_succ_le_succ height
      have known := Fields.foundFit_of_collect collected parts fun accepted one known =>
        fields.foundFit_of_accept lawful accepted one height known
      apply Schema.fits_record
      rw [(view_iff _ _).mpr rfl]
      exact fields.fit_of_finish lawful finished known height
    · obtain ⟨less, rfl, parts⟩ := offers.forall_item entered
      apply Schema.fits_record
      rw [(view_iff _ _).mpr rfl]
      exact fields.fit_of_readItems lawful found parts (Nat.le_of_succ_le_succ height)
  | .tagged _ tag variants, _ =>
    obtain ⟨lawful, _⟩ := h
    obtain ⟨inner, name, entered, parts⟩ := Schema.read_tagged_cases read
    rcases parts with ⟨members, closed, others, rfl, divided, read⟩ |
      ⟨first, rest, closed, rfl, values, read⟩
    · obtain ⟨less, rfl, parts⟩ := offers.forall_member entered
      apply Schema.fits_tagged
      exact variants.fit_of_readObject lawful read (offers_of_splitTag divided parts)
        (Nat.le_of_succ_le_succ height)
    · obtain ⟨less, rfl, parts⟩ := offers.forall_item entered
      apply Schema.fits_tagged
      exact variants.fit_of_readList lawful read
        (offers_of_forM values (List.forall_mem_cons.mp parts).2) (Nat.le_of_succ_le_succ height)
  | .either _ ofText fields make view, _ =>
    obtain ⟨lawful, text_iff, view_iff⟩ := h
    obtain ⟨⟨value, known⟩, parts⟩ := Schema.read_either_cases read
    rcases parts with ⟨s, rfl, rfl⟩ |
      ⟨members, closed, found, values, rfl, collected, finished, rfl⟩
    · exact Schema.fits_either_text text_iff s
    · obtain ⟨less, rfl, parts⟩ := (offers.buffer known).forall_member rfl
      have height := Nat.le_of_succ_le_succ height
      have known := Fields.foundFit_of_collect collected parts fun accepted one known =>
        fields.foundFit_of_accept lawful accepted one height known
      exact Schema.fits_either_record view_iff (fields.fit_of_finish lawful finished known height)

theorem Fields.foundFit_of_accept {ρ σ : Type} (fields : Fields ρ σ) (h : fields.IsLawful)
    {source : Source} {room : Nat} {name : String} {node : Node} {found more : σ}
    (accepted : fields.accept source name node found = .ok (some more))
    (offers : node.Offers source room) (height : fields.height ≤ room)
    (known : fields.FoundFit room found) : fields.FoundFit room more := by
  match fields, found, more with
  | .nil, _, _ => trivial
  | .cons field absent omitted schema rest, (slot, others), more =>
    obtain ⟨lawful, restLawful, _, _, _⟩ := h
    obtain ⟨first, later⟩ := Nat.max_le.mp height
    rw [Fields.accept] at accepted
    split at accepted
    · split at accepted
      · cases accepted
      · obtain ⟨a, read, accepted⟩ := exists_of_bind_eq_ok accepted
        cases accepted
        refine ⟨?_, known.2⟩
        intro b same
        cases same
        exact schema.fits_of_read lawful read offers first
    · obtain ⟨taken, passed, accepted⟩ := exists_of_bind_eq_ok accepted
      cases taken with
      | none => cases accepted
      | some values =>
        cases accepted
        exact ⟨known.1, rest.foundFit_of_accept restLawful passed offers later known.2⟩

theorem Fields.fit_of_readItems {ρ σ : Type} (fields : Fields ρ σ) (h : fields.IsLawful)
    {source : Source} {room : Nat} {type : String} {count : Nat} {closed : Bool} {taken : Nat}
    {items left : List Node} {values : ρ}
    (read : fields.readItems source type count closed taken items = .ok (values, left))
    (offers : ∀ item ∈ items, item.Offers source room) (height : fields.height ≤ room) :
    fields.Fit room values := by
  match fields, values with
  | .nil, _ => exact Fields.fit_nil room
  | .cons field absent omitted schema rest, _ =>
    obtain ⟨lawful, restLawful, _, _, fits⟩ := h
    obtain ⟨first, later⟩ := Nat.max_le.mp height
    cases items with
    | nil =>
      unfold Fields.readItems at read
      obtain ⟨_, _, read⟩ := exists_of_bind_eq_ok read
      cases absent with
      | none => cases read
      | some a =>
        obtain ⟨⟨values, left⟩, found, read⟩ := exists_of_bind_eq_ok read
        cases read
        apply Fields.fit_cons ((fits a rfl).mono first)
        exact rest.fit_of_readItems restLawful found offers later
    | cons node items =>
      obtain ⟨one, all⟩ := List.forall_mem_cons.mp offers
      rw [Fields.readItems] at read
      obtain ⟨a, taken, read⟩ := exists_of_bind_eq_ok read
      obtain ⟨⟨values, left⟩, found, read⟩ := exists_of_bind_eq_ok read
      cases read
      apply Fields.fit_cons
      · exact schema.fits_of_read lawful taken one first
      · exact rest.fit_of_readItems restLawful found all later

theorem Variants.fit_of_readObject {α : Type} (variants : Variants α) {tag : String}
    (h : variants.IsLawful tag) {room : Nat} {name : String} {members : List (Node × Node)} {a : α}
    (read : variants.readObject name members = .ok a)
    (offers : ∀ member ∈ members, member.2.Offers .buffer room) (height : variants.height ≤ room) :
    variants.Fit tag room a := by
  match variants with
  | .nil => cases read
  | .cons _ _ fields make view rest =>
    obtain ⟨lawful, restLawful, _, _, view_iff, distinct⟩ := h
    obtain ⟨first, later⟩ := Nat.max_le.mp height
    rw [Variants.readObject] at read
    split at read
    · obtain ⟨found, collected, read⟩ := exists_of_bind_eq_ok read
      obtain ⟨values, finished, read⟩ := exists_of_bind_eq_ok read
      cases read
      have known := Fields.foundFit_of_collect collected offers fun accepted one known =>
        fields.foundFit_of_accept lawful accepted one first known
      exact Variants.fit_first view_iff (fields.fit_of_finish lawful finished known first)
    · exact Variants.fit_later distinct (rest.fit_of_readObject restLawful read offers later)

theorem Variants.fit_of_readList {α : Type} (variants : Variants α) {tag : String}
    (h : variants.IsLawful tag) {room : Nat} {name : String} {items : List Node} {a : α}
    (read : variants.readList name items = .ok a)
    (offers : ∀ item ∈ items, item.Offers .buffer room) (height : variants.height ≤ room) :
    variants.Fit tag room a := by
  match variants with
  | .nil => cases read
  | .cons _ _ fields make view rest =>
    obtain ⟨lawful, restLawful, _, _, view_iff, distinct⟩ := h
    obtain ⟨first, later⟩ := Nat.max_le.mp height
    rw [Variants.readList] at read
    split at read
    · obtain ⟨⟨values, left⟩, found, read⟩ := exists_of_bind_eq_ok read
      obtain ⟨others, finished, read⟩ := exists_of_bind_eq_ok read
      cases eq_of_finishItems finished
      cases read
      exact Variants.fit_first view_iff (fields.fit_of_readItems lawful found offers first)
    · exact Variants.fit_later distinct (rest.fit_of_readList restLawful read offers later)

end

/--
There is a text for a value that was read from a text.
-/
theorem Schema.fits_of_decode {α : Type} {schema : Schema α} (h : schema.IsLawful)
    (height : schema.height ≤ Source.limit) {text : String} {a : α}
    (read : schema.decode text = .ok a) : schema.Fits Source.limit a := by
  have spelled := Node.eachNumber_ofText text
  generalize parsed : Node.ofText text = document at spelled
  have read := ((Schema.decode_eq_ok_iff parsed).mp read).1
  exact schema.fits_of_read h read ⟨Nat.le_refl Source.limit, spelled⟩ height

/--
Of the values with doubles that are read as they were written, those are so that fit into a text.
-/
theorem Schema.decode_encode_eq_ok_iff {α : Type} {schema : Schema α} (h : schema.IsLawful)
    (height : schema.height ≤ Source.limit) {a : α} (same : schema.ReadsBack a)
    (spacing : Spacing) :
    schema.decode (schema.encode a spacing) = .ok a ↔
      schema.IsFinite a ∧ schema.EmbedsWithin Source.limit a := by
  rw [← schema.nesting_write_le_iff h height]
  constructor
  · intro read
    have fits := Schema.fits_of_decode h height read
    exact ⟨fits.finite, fits.nesting_le⟩
  · rintro ⟨finite, nesting⟩
    exact Fits.decode_encode ⟨finite, nesting, same.isSpelled⟩ h same spacing

end Stagecraft
