import Stagecraft.Document.Reading
import Stagecraft.Proofs.Document.Decoding
import Stagecraft.Proofs.Document.Printing
import Stagecraft.Table.Lemmas

/-!
This module contains how deep the containers of documents stand in each other, and what this has to
do with the reading of values: a value is read from a text as it was written if the text may be
nested as deep as the value is, and what could be read is not nested deeper than it may be.
-/

namespace Stagecraft

namespace Node

mutual

/--
The number of containers that the innermost part of a document stands in.
-/
def nesting : Node → Nat
  | .array items _ => nestingItems items + 1
  | .object members _ => nestingMembers members + 1
  | .leaf _ => 0
  | .missing _ => 0

def nestingItems : List Node → Nat
  | [] => 0
  | item :: rest => max item.nesting (nestingItems rest)

def nestingMembers : List (Node × Node) → Nat
  | [] => 0
  | (_, value) :: rest => max value.nesting (nestingMembers rest)

end

variable {room : Nat}

theorem nestingItems_le_iff {items : List Node} :
    nestingItems items ≤ room ↔ ∀ item ∈ items, item.nesting ≤ room := by
  induction items with
  | nil => simp [nestingItems]
  | cons item rest ih => rw [nestingItems, Nat.max_le, ih, List.forall_mem_cons]

theorem nestingMembers_le_iff {members : List (Node × Node)} :
    nestingMembers members ≤ room ↔ ∀ member ∈ members, member.2.nesting ≤ room := by
  induction members with
  | nil => simp [nestingMembers]
  | cons member rest ih => rw [nestingMembers, Nat.max_le, ih, List.forall_mem_cons]

theorem nesting_ofFloat (x : Float) : (ofFloat x).nesting = 0 := by
  unfold ofFloat
  split
  · rfl
  · rfl

end Node

namespace Source

variable {source inner : Source} {room depth less : Nat}

/--
Whether a document may be nested `depth` deep. Only in text there is a limit.
-/
def Allows : Source → (depth : Nat) → Prop
  | .text room, depth => depth ≤ room
  | .value, _ => True
  | .buffer, _ => True

theorem Allows.mono (h : source.Allows depth) (le : less ≤ depth) : source.Allows less := by
  cases source with
  | text => exact Nat.le_trans le h
  | value => trivial
  | buffer => trivial

theorem Allows.exists_enter (h : source.Allows (depth + 1)) :
    ∃ inner, source.enter = .ok inner ∧ inner.Allows depth := by
  cases source with
  | text room =>
    cases room with
    | zero => exact absurd h (Nat.not_succ_le_zero depth)
    | succ room => exact ⟨.text room, rfl, Nat.le_of_succ_le_succ h⟩
  | value => exact ⟨.value, rfl, trivial⟩
  | buffer => exact ⟨.buffer, rfl, trivial⟩

theorem allows_succ_iff (entered : source.enter = .ok inner) :
    source.Allows (depth + 1) ↔ inner.Allows depth := by
  constructor
  · intro h
    obtain ⟨_, same, h⟩ := h.exists_enter
    cases entered.symm.trans same
    exact h
  · intro h
    cases source with
    | text room =>
      cases room with
      | zero => cases entered
      | succ room =>
        cases entered
        exact Nat.succ_le_succ h
    | value => trivial
    | buffer => trivial

/--
Whether `room` bounds what can be read of a document that is nested `depth` deep: its reader goes no
deeper, or it is no deeper.
-/
def Within (source : Source) (room depth : Nat) : Prop :=
  match source with
  | .text limit => limit ≤ room
  | .value => depth ≤ room
  | .buffer => depth ≤ room

theorem Within.mono (h : source.Within room depth) (le : less ≤ depth) :
    source.Within room less := by
  cases source with
  | text => exact h
  | value => exact Nat.le_trans le h
  | buffer => exact Nat.le_trans le h

theorem Within.exists_of_enter (h : source.Within room (depth + 1))
    (entered : source.enter = .ok inner) : ∃ less, room = less + 1 ∧ inner.Within less depth := by
  cases source with
  | text limit =>
    cases limit with
    | zero => cases entered
    | succ limit =>
      cases entered
      obtain ⟨less, rfl⟩ := Nat.exists_eq_add_one.mpr (Nat.zero_lt_of_lt h)
      exact ⟨less, rfl, Nat.le_of_succ_le_succ h⟩
  | value =>
    cases entered
    obtain ⟨less, rfl⟩ := Nat.exists_eq_add_one.mpr (Nat.zero_lt_of_lt h)
    exact ⟨less, rfl, Nat.le_of_succ_le_succ h⟩
  | buffer =>
    cases entered
    obtain ⟨less, rfl⟩ := Nat.exists_eq_add_one.mpr (Nat.zero_lt_of_lt h)
    exact ⟨less, rfl, Nat.le_of_succ_le_succ h⟩

end Source

namespace Node

variable {source inner : Source} {room : Nat}

theorem allows_item {items : List Node} (h : source.Allows (nestingItems items)) {item : Node}
    (mem : item ∈ items) : source.Allows item.nesting :=
  h.mono (nestingItems_le_iff.mp (Nat.le_refl _) item mem)

theorem allows_member {members : List (Node × Node)} (h : source.Allows (nestingMembers members))
    {member : Node × Node} (mem : member ∈ members) : source.Allows member.2.nesting :=
  h.mono (nestingMembers_le_iff.mp (Nat.le_refl _) member mem)

theorem allows_nestingMembers_iff {members : List (Node × Node)} :
    source.Allows (nestingMembers members) ↔
      ∀ member ∈ members, source.Allows member.2.nesting := by
  refine ⟨fun h _ => allows_member h, ?_⟩
  intro h
  cases source with
  | text room => exact nestingMembers_le_iff.mpr h
  | value => trivial
  | buffer => trivial

theorem within_item {items : List Node} (h : source.Within room (nestingItems items)) {item : Node}
    (mem : item ∈ items) : source.Within room item.nesting :=
  h.mono (nestingItems_le_iff.mp (Nat.le_refl _) item mem)

theorem within_member {members : List (Node × Node)}
    (h : source.Within room (nestingMembers members)) {member : Node × Node}
    (mem : member ∈ members) : source.Within room member.2.nesting :=
  h.mono (nestingMembers_le_iff.mp (Nat.le_refl _) member mem)

mutual

theorem isWhole_ofValue (value : Value) : (ofValue value).IsWhole :=
  match value with
  | .null => .leaf trivial
  | .flag _ => .leaf trivial
  | .number _ => .leaf trivial
  | .text _ => .leaf trivial
  | .array items => .array (isWhole_ofValues items)
  | .object members =>
    .object (fun member mem => (isWhole_ofMembers members member mem).1)
      (fun member mem => (isWhole_ofMembers members member mem).2)

theorem isWhole_ofValues (items : List Value) : ∀ item ∈ ofValues items, item.IsWhole :=
  match items with
  | [] => List.forall_mem_nil _
  | item :: rest => List.forall_mem_cons.mpr ⟨isWhole_ofValue item, isWhole_ofValues rest⟩

theorem isWhole_ofMembers {bound : Option String} (members : Entries Value bound) :
    ∀ member ∈ ofMembers members, (∃ name, member.1 = .text name) ∧ member.2.IsWhole :=
  match members with
  | .nil => List.forall_mem_nil _
  | .cons key _ value rest =>
    List.forall_mem_cons.mpr ⟨⟨⟨key, rfl⟩, isWhole_ofValue value⟩, isWhole_ofMembers rest⟩

end

mutual

/--
A value is read as it was written.
-/
theorem toValue_ofValue (value : Value) {source : Source}
    (h : source.Allows (ofValue value).nesting) : (ofValue value).toValue source = .ok value := by
  match value with
  | .null => rfl
  | .flag _ => rfl
  | .number _ => rfl
  | .text _ => rfl
  | .array items =>
    obtain ⟨inner, entered, room⟩ := h.exists_enter
    rw [ofValue, toValue, entered]
    change (toValues inner (ofValues items) >>= _) = _
    rw [toValues_ofValues items room]
    rfl
  | .object members =>
    obtain ⟨inner, entered, room⟩ := h.exists_enter
    rw [ofValue, toValue, entered]
    change (toMembers inner .empty (ofMembers members) >>= _) = _
    rw [toMembers_ofMembers members room .empty]
    exact congrArg (Except.ok ∘ Value.object) (Table.ofList_toList members)

theorem toValues_ofValues (items : List Value) {source : Source}
    (h : source.Allows (nestingItems (ofValues items))) :
    toValues source (ofValues items) = .ok items := by
  match items with
  | [] => rfl
  | item :: rest =>
    rw [ofValues, toValues, toValue_ofValue item (h.mono (Nat.le_max_left _ _)),
      toValues_ofValues rest (h.mono (Nat.le_max_right _ _))]
    rfl

theorem toMembers_ofMembers {bound : Option String} (members : Entries Value bound)
    {source : Source} (h : source.Allows (nestingMembers (ofMembers members)))
    (before : Table Value) :
    toMembers source before (ofMembers members) =
      .ok (members.toList.foldl (fun t pair => t.insert pair.1 pair.2) before) := by
  match members with
  | .nil => rfl
  | .cons key _ value rest =>
    rw [ofMembers, toMembers, toValue_ofValue value (h.mono (Nat.le_max_left _ _))]
    exact toMembers_ofMembers rest (h.mono (Nat.le_max_right _ _)) (before.insert key value)

end

theorem exists_toValues {items : List Node}
    (h : ∀ item ∈ items, ∃ value, item.toValue source = .ok value) :
    ∃ values, toValues source items = .ok values := by
  induction items with
  | nil => exact ⟨[], rfl⟩
  | cons item rest ih =>
    obtain ⟨⟨value, first⟩, others⟩ := List.forall_mem_cons.mp h
    obtain ⟨values, others⟩ := ih others
    exact ⟨value :: values, by rw [toValues, first, others]; rfl⟩

theorem exists_toMembers {members : List (Node × Node)}
    (keys : ∀ member ∈ members, ∃ name, member.1 = .text name)
    (h : ∀ member ∈ members, ∃ value, member.2.toValue source = .ok value)
    (before : Table Value) : ∃ t, toMembers source before members = .ok t := by
  induction members generalizing before with
  | nil => exact ⟨before, rfl⟩
  | cons member rest ih =>
    obtain ⟨key, node⟩ := member
    obtain ⟨⟨name, same⟩, names⟩ := List.forall_mem_cons.mp keys
    obtain ⟨⟨value, first⟩, others⟩ := List.forall_mem_cons.mp h
    dsimp only at same first
    subst same
    obtain ⟨t, others⟩ := ih names others (before.insert name value)
    exact ⟨t, by rw [toMembers, first]; exact others⟩

/--
A document without a fault in it stands for a value.
-/
theorem IsWhole.exists_toValue {node : Node} (whole : node.IsWhole)
    (h : source.Allows node.nesting) : ∃ value, node.toValue source = .ok value := by
  induction whole generalizing source with
  | @leaf leaf whole =>
    cases leaf with
    | broken => cases whole
    | null => exact ⟨_, rfl⟩
    | flag => exact ⟨_, rfl⟩
    | number => exact ⟨_, rfl⟩
    | text => exact ⟨_, rfl⟩
  | array _ ih =>
    obtain ⟨inner, entered, room⟩ := h.exists_enter
    obtain ⟨values, read⟩ := exists_toValues fun item mem => ih item mem (allows_item room mem)
    exact ⟨.array values, by rw [toValue, entered]; simp [bind, Except.bind, read]; rfl⟩
  | object keys _ ih =>
    obtain ⟨inner, entered, room⟩ := h.exists_enter
    obtain ⟨t, read⟩ := exists_toMembers keys
      (fun member mem => ih member mem (allows_member room mem)) .empty
    exact ⟨.object t, by rw [toValue, entered]; simp [bind, Except.bind, read]; rfl⟩

theorem ofMembers_eq_map {bound : Option String} (members : Entries Value bound) :
    ofMembers members = members.toList.map fun pair => (.text pair.1, .ofValue pair.2) := by
  induction members with
  | nil => rfl
  | cons key _ value rest ih => rw [ofMembers, ih, Entries.toList_cons, List.map_cons]

theorem nestingMembers_ofMembers_le_iff {t : Table Value} :
    nestingMembers (ofMembers t) ≤ room ↔
      ∀ name value, t.get? name = some value → (ofValue value).nesting ≤ room := by
  rw [ofMembers_eq_map, nestingMembers_le_iff, List.forall_mem_map, Prod.forall]
  simp only [Entries.mem_toList_iff]

mutual

/--
A value is not nested deeper than its reader goes, nor is the document that it was read from.
-/
theorem nesting_of_toValue (node : Node) {source : Source} {room : Nat} {value : Value}
    (read : node.toValue source = .ok value) (h : source.Within room node.nesting) :
    node.nesting ≤ room ∧ (ofValue value).nesting ≤ room := by
  match node with
  | .leaf .null | .leaf (.flag _) | .leaf (.number _) | .leaf (.text _) =>
    cases read
    exact ⟨Nat.zero_le room, Nat.zero_le room⟩
  | .leaf (.broken ..) | .missing _ => cases read
  | .array items closed =>
    obtain ⟨inner, entered, read⟩ := exists_of_bind_eq_ok read
    obtain ⟨values, found, read⟩ := exists_of_bind_eq_ok read
    obtain ⟨_, _, read⟩ := exists_of_bind_eq_ok read
    cases read
    obtain ⟨less, rfl, within⟩ := h.exists_of_enter entered
    obtain ⟨parts, result⟩ := nesting_of_toValues items found within
    exact ⟨Nat.succ_le_succ parts, Nat.succ_le_succ result⟩
  | .object members closed =>
    obtain ⟨inner, entered, read⟩ := exists_of_bind_eq_ok read
    obtain ⟨t, found, read⟩ := exists_of_bind_eq_ok read
    obtain ⟨_, _, read⟩ := exists_of_bind_eq_ok read
    cases read
    obtain ⟨less, rfl, within⟩ := h.exists_of_enter entered
    obtain ⟨parts, result⟩ := nesting_of_toMembers members found within (Nat.zero_le less)
    exact ⟨Nat.succ_le_succ parts, Nat.succ_le_succ result⟩

theorem nesting_of_toValues (items : List Node) {source : Source} {room : Nat}
    {values : List Value} (read : toValues source items = .ok values)
    (h : source.Within room (nestingItems items)) :
    nestingItems items ≤ room ∧ nestingItems (ofValues values) ≤ room := by
  match items with
  | [] =>
    cases read
    exact ⟨Nat.zero_le room, Nat.zero_le room⟩
  | item :: rest =>
    obtain ⟨value, first, read⟩ := exists_of_bind_eq_ok read
    obtain ⟨others, found, read⟩ := exists_of_bind_eq_ok read
    cases read
    have one := nesting_of_toValue item first (h.mono (Nat.le_max_left _ _))
    have all := nesting_of_toValues rest found (h.mono (Nat.le_max_right _ _))
    exact ⟨Nat.max_le.mpr ⟨one.1, all.1⟩, Nat.max_le.mpr ⟨one.2, all.2⟩⟩

theorem nesting_of_toMembers (members : List (Node × Node)) {source : Source} {room : Nat}
    {before t : Table Value} (read : toMembers source before members = .ok t)
    (h : source.Within room (nestingMembers members))
    (known : nestingMembers (ofMembers before) ≤ room) :
    nestingMembers members ≤ room ∧ nestingMembers (ofMembers t) ≤ room := by
  match members with
  | [] =>
    cases read
    exact ⟨Nat.zero_le room, known⟩
  | (key, node) :: rest =>
    obtain ⟨name, _, read⟩ := exists_of_bind_eq_ok read
    obtain ⟨value, first, read⟩ := exists_of_bind_eq_ok read
    have one := nesting_of_toValue node first (h.mono (Nat.le_max_left _ _))
    have known : nestingMembers (ofMembers (before.insert name value)) ≤ room := by
      rw [nestingMembers_ofMembers_le_iff]
      intro other found same
      rw [Table.get?_insert] at same
      split at same
      · cases same
        exact one.2
      · exact nestingMembers_ofMembers_le_iff.mp known other found same
    have all := nesting_of_toMembers rest read (h.mono (Nat.le_max_right _ _)) known
    exact ⟨Nat.max_le.mpr ⟨one.1, all.1⟩, all.2⟩

end

theorem name_eq_ok_iff {node : Node} {s : String} : node.name = .ok s ↔ node = .text s := by
  constructor
  · intro read
    match node with
    | .leaf (.text _) =>
      cases read
      rfl
    | .leaf (.broken spelled _ _) =>
      cases spelled with
      | _ => cases read
    | .leaf .null | .leaf (.flag _) | .leaf (.number _) | .array .. | .object .. | .missing _ =>
      cases read
  · rintro rfl
    rfl

theorem eq_true_of_check {closed : Bool} {span : Span} {result : Unit}
    (h : check (endFault closed span) = .ok result) : closed = true := by
  cases closed with
  | true => rfl
  | false => cases h

mutual

/--
A document that could be read as a value has no fault in it.
-/
theorem isWhole_of_toValue (node : Node) {source : Source} {value : Value}
    (read : node.toValue source = .ok value) : node.IsWhole := by
  match node with
  | .leaf .null | .leaf (.flag _) | .leaf (.number _) | .leaf (.text _) => exact .leaf trivial
  | .leaf (.broken ..) | .missing _ => cases read
  | .array items closed =>
    obtain ⟨_, _, read⟩ := exists_of_bind_eq_ok read
    obtain ⟨_, found, read⟩ := exists_of_bind_eq_ok read
    obtain ⟨_, ended, _⟩ := exists_of_bind_eq_ok read
    cases eq_true_of_check ended
    exact .array (isWhole_of_toValues items found)
  | .object members closed =>
    obtain ⟨_, _, read⟩ := exists_of_bind_eq_ok read
    obtain ⟨_, found, read⟩ := exists_of_bind_eq_ok read
    obtain ⟨_, ended, _⟩ := exists_of_bind_eq_ok read
    cases eq_true_of_check ended
    have parts := isWhole_of_toMembers members found
    exact .object (fun member mem => (parts member mem).1) (fun member mem => (parts member mem).2)

theorem isWhole_of_toValues (items : List Node) {source : Source} {values : List Value}
    (read : toValues source items = .ok values) : ∀ item ∈ items, item.IsWhole := by
  match items with
  | [] => exact List.forall_mem_nil _
  | item :: rest =>
    obtain ⟨_, first, read⟩ := exists_of_bind_eq_ok read
    obtain ⟨_, others, _⟩ := exists_of_bind_eq_ok read
    exact List.forall_mem_cons.mpr
      ⟨isWhole_of_toValue item first, isWhole_of_toValues rest others⟩

theorem isWhole_of_toMembers (members : List (Node × Node)) {source : Source}
    {before t : Table Value} (read : toMembers source before members = .ok t) :
    ∀ member ∈ members, (∃ name, member.1 = .text name) ∧ member.2.IsWhole := by
  match members with
  | [] => exact List.forall_mem_nil _
  | (key, node) :: rest =>
    obtain ⟨name, spelled, read⟩ := exists_of_bind_eq_ok read
    obtain ⟨_, first, read⟩ := exists_of_bind_eq_ok read
    exact List.forall_mem_cons.mpr ⟨⟨⟨name, name_eq_ok_iff.mp spelled⟩,
      isWhole_of_toValue node first⟩, isWhole_of_toMembers rest read⟩

end

/--
The documents that stand for values: those without a fault that are not nested too deep.
-/
theorem exists_toValue_iff {node : Node} :
    (∃ value, node.toValue source = .ok value) ↔ node.IsWhole ∧ source.Allows node.nesting := by
  constructor
  · rintro ⟨value, read⟩
    refine ⟨node.isWhole_of_toValue read, ?_⟩
    cases source with
    | text room => exact (node.nesting_of_toValue read (Nat.le_refl room)).1
    | value => trivial
    | buffer => trivial
  · rintro ⟨whole, room⟩
    exact whole.exists_toValue room

end Node

end Stagecraft
