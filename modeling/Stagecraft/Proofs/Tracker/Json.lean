import Stagecraft.Proofs.Document.Lawful
import Stagecraft.Tracker

/-!
This module contains what is read from the record of a run in its written form. There is something
to be read if all times in it are finite; a time that is not has no place in a document and is
missed. What is read is the record itself as far as the digits of its times are read as those times.
-/

namespace Stagecraft

namespace Node

theorem ofFloat_of_isFinite {x : Float} (h : x.isFinite = true) : ofFloat x = .number (.real x h) :=
  dif_pos h

theorem ofFloat_of_not_isFinite {x : Float} (h : x.isFinite = false) : ofFloat x = .null :=
  dif_neg (ne_true_of_eq_false h)

theorem isWhole_ofFloat (x : Float) : (ofFloat x).IsWhole := by
  unfold ofFloat
  split
  · exact .leaf trivial
  · exact .leaf trivial

end Node

/--
What is written without a fault is read without one, as far as the text goes; a double is read as
what comes out of its digits.
-/
theorem Schema.decode_encode {α : Type} {schema : Schema α} {a : α} (h : (schema.write a).IsWhole)
    (spacing : Spacing) :
    schema.decode (schema.encode a spacing) =
      schema.read (.text Source.limit) (schema.write a).reread := by
  unfold decode encode
  rw [Node.ofText_print h spacing]
  dsimp only
  cases schema.read (.text Source.limit) (schema.write a).reread with
  | ok => rfl
  | error => rfl

namespace TimingRecord

def IsFinite (row : TimingRecord) : Prop :=
  row.planned.isFinite = true ∧ row.actual.isFinite = true

instance (row : TimingRecord) : Decidable row.IsFinite := inferInstanceAs (Decidable (_ ∧ _))

theorem write_eq (row : TimingRecord) :
    schema.write row =
      .object [(.text "action", .text row.action), (.text "planned", .ofFloat row.planned),
        (.text "actual", .ofFloat row.actual)] true := rfl

theorem isWhole_write (row : TimingRecord) : (schema.write row).IsWhole := by
  rw [write_eq]
  apply Node.IsWhole.object
  · simp
  · intro member mem
    simp only [List.mem_cons, List.not_mem_nil, or_false] at mem
    obtain rfl | rfl | rfl := mem
    · exact .leaf trivial
    · exact Node.isWhole_ofFloat row.planned
    · exact Node.isWhole_ofFloat row.actual

/--
What is said of nothing in the place of a time.
-/
def noTime : Fault := .mismatch (.wrongType .null "f64")

/--
The row as which a written row is read.
-/
def reread (row : TimingRecord) : TimingRecord where
  action := row.action
  planned := Double.reread row.planned
  actual := Double.reread row.actual

theorem read_reread_write (row : TimingRecord) (room : Nat) :
    schema.read (.text (room + 1)) (schema.write row).reread =
      if row.IsFinite then .ok row.reread else .error noTime := by
  rw [write_eq, Node.reread, Node.rereadMembers_eq_map]
  simp only [List.map_cons, List.map_nil]
  cases first : row.planned.isFinite with
  | false =>
    rw [Node.ofFloat_of_not_isFinite first, if_neg fun finite => by simp [finite.1] at first]
    rfl
  | true =>
    rw [Node.ofFloat_of_isFinite first]
    cases second : row.actual.isFinite with
    | false =>
      rw [Node.ofFloat_of_not_isFinite second, if_neg fun finite => by simp [finite.2] at second]
      rfl
    | true =>
      rw [Node.ofFloat_of_isFinite second, if_pos ⟨first, second⟩]
      rfl

theorem readsBack_iff {row : TimingRecord} (finite : row.IsFinite) :
    schema.ReadsBack row ↔
      Double.reread row.planned = row.planned ∧ Double.reread row.actual = row.actual := by
  unfold Schema.ReadsBack
  rw [write_eq, Node.ofFloat_of_isFinite finite.1, Node.ofFloat_of_isFinite finite.2]
  simp [Number.readsBack_real_iff]

end TimingRecord

theorem mapM_eq_ite {α β ε : Type} {f : α → Except ε β} {p : α → Prop} [DecidablePred p]
    {g : α → β} {error : ε} (h : ∀ a, f a = if p a then .ok (g a) else .error error)
    (xs : List α) : xs.mapM f = if ∀ a ∈ xs, p a then .ok (xs.map g) else .error error := by
  induction xs with
  | nil => rfl
  | cons a rest ih =>
    rw [List.mapM_cons, h, ih]
    by_cases first : p a
    · by_cases others : ∀ a ∈ rest, p a
      · rw [if_pos first, if_pos others, if_pos (List.forall_mem_cons.mpr ⟨first, others⟩)]
        rfl
      · rw [if_pos first, if_neg others, if_neg fun all => others (List.forall_mem_cons.mp all).2]
        rfl
    · rw [if_neg first, if_neg fun all => first (List.forall_mem_cons.mp all).1]
      rfl

namespace Tracker

theorem read_reread_write (records : List TimingRecord) (room : Nat) :
    (Schema.list TimingRecord.schema).read (.text (room + 2))
        ((Schema.list TimingRecord.schema).write records).reread =
      if ∀ row ∈ records, row.IsFinite then
        .ok (records.map TimingRecord.reread)
      else
        .error TimingRecord.noTime := by
  rw [← mapM_eq_ite (fun row => row.read_reread_write room), Schema.write, Node.reread,
    Node.rereadItems_eq_map, Schema.read]
  simp only [Source.enter, endFault, check, bind, Except.bind, pure, Except.pure, ↓reduceIte,
    List.mapM_map, Function.comp_def]
  generalize List.mapM (m := Except Fault) _ records = found
  cases found with
  | ok => rfl
  | error => rfl

theorem isWhole_write (records : List TimingRecord) :
    ((Schema.list TimingRecord.schema).write records).IsWhole := by
  rw [Schema.write]
  apply Node.IsWhole.array
  intro item mem
  obtain ⟨row, _, rfl⟩ := List.mem_map.mp mem
  exact row.isWhole_write

/--
The written record can be read, unless there is a time in it that is not finite.
-/
theorem decode_json (t : Tracker) :
    (Schema.list TimingRecord.schema).decode t.json =
      if ∀ row ∈ t.records, row.IsFinite then
        .ok (t.records.map TimingRecord.reread)
      else
        .error TimingRecord.noTime := by
  unfold json
  rw [Schema.decode_encode (isWhole_write t.records) .indented]
  exact read_reread_write t.records 125

theorem readsBack_iff {records : List TimingRecord} (finite : ∀ row ∈ records, row.IsFinite) :
    (Schema.list TimingRecord.schema).ReadsBack records ↔ ∀ row ∈ records,
      Double.reread row.planned = row.planned ∧ Double.reread row.actual = row.actual := by
  unfold Schema.ReadsBack
  rw [Schema.write, Node.eachNumber_array_iff, List.forall_mem_map]
  exact forall₂_congr fun row mem => TimingRecord.readsBack_iff (finite row mem)

/--
The record itself is read if this holds of its times.
-/
theorem decode_json_eq_ok {t : Tracker} (finite : ∀ row ∈ t.records, row.IsFinite)
    (h : (Schema.list TimingRecord.schema).ReadsBack t.records) :
    (Schema.list TimingRecord.schema).decode t.json = .ok t.records := by
  have same : ∀ row ∈ t.records, row.reread = row := by
    intro row mem
    obtain ⟨planned, actual⟩ := (readsBack_iff finite).mp h row mem
    unfold TimingRecord.reread
    rw [planned, actual]
  rw [decode_json, if_pos finite, List.map_congr_left same, List.map_id']

end Tracker

end Stagecraft
