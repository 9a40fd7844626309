import Stagecraft.Proofs.Decimal.Thousandths
import Stagecraft.Tracker

/-!
This module contains what is read from the record of a run in its tabular form. A reader takes a
table character by character. It finds the fields that were written, whatever characters they have.
-/

namespace Stagecraft

namespace Csv

/--
Where a reader is: before a field, in a field without quotes, in one with quotes, or behind a quote
in such a field. That quote ends the field, unless another one follows.
-/
inductive Place where
  | start
  | bare
  | quoted
  | quote

/--
What was read of a table: rows, then fields of the next row, then characters of the next field.
-/
structure Reader where
  rows : List (List String) := []
  fields : List String := []
  field : List Char := []
  place : Place := .start

namespace Reader

def take (r : Reader) (place : Place) (c : Char) : Reader :=
  { r with field := r.field ++ [c], place }

/--
Ends a field at a comma, and its row too at a line feed.
-/
def close? (r : Reader) (c : Char) : Option Reader :=
  let fields := r.fields ++ [String.ofList r.field]
  if c = ',' then
    some { rows := r.rows, fields }
  else if c = '\n' then
    some { rows := r.rows ++ [fields] }
  else
    none

def next? (r : Reader) (c : Char) : Option Reader :=
  match r.place with
  | .start => if c = '"' then some { r with place := .quoted } else r.close? c <|> r.take .bare c
  | .bare => r.close? c <|> r.take .bare c
  | .quoted => if c = '"' then some { r with place := .quote } else r.take .quoted c
  | .quote => if c = '"' then r.take .quoted c else r.close? c

def follow (r : Reader) (cs : List Char) : Option Reader := cs.foldlM next? r

/--
The rows that were read, if the last one of them has come to its end.
-/
def whole? (r : Reader) : Option (List (List String)) :=
  match r.fields, r.place with
  | [], .start => some r.rows
  | _, _ => none

end Reader

/--
The rows of a table in text.
-/
def read (text : String) : Option (List (List String)) :=
  (Reader.follow {} text.toList).bind Reader.whole?

/--
A character that a reader takes as it is, wherever it stands.
-/
def Ordinary (c : Char) : Prop := c ≠ ',' ∧ c ≠ '"' ∧ c ≠ '\n'

/--
A text that needs no quotes.
-/
def Plain (s : String) : Prop := ∀ c ∈ s.toList, Ordinary c

def doubled (c : Char) : List Char := if c = '"' then ['"', '"'] else [c]

theorem any_iff {s : String} :
    (s.toList.any fun c => c = ',' || c = '"' || c = '\n') = true ↔ ¬Plain s := by
  unfold Plain Ordinary
  simp only [List.any_eq_true, Bool.or_eq_true, decide_eq_true_eq]
  push Not
  grind

theorem field_of_plain {s : String} (h : Plain s) : field s = s :=
  if_neg (any_iff.not.mpr (not_not_intro h))

theorem field_of_not_plain {s : String} (h : ¬Plain s) :
    (field s).toList = '"' :: s.toList.flatMap doubled ++ ['"'] := by
  unfold field
  rw [if_pos (any_iff.mpr h)]
  simp only [String.toList_append, String.toList_ofList]
  rfl

namespace Reader

variable {rows : List (List String)} {fields : List String} {cs : List Char} {c : Char}

theorem follow_nil (r : Reader) : r.follow [] = some r := rfl

theorem follow_cons (r : Reader) (c : Char) (cs : List Char) :
    r.follow (c :: cs) = (r.next? c).bind fun r => r.follow cs := rfl

theorem follow_append (r : Reader) (cs ds : List Char) :
    r.follow (cs ++ ds) = (r.follow cs).bind fun r => r.follow ds := by
  unfold follow
  rw [List.foldlM_append]
  rfl

theorem follow_bare (plain : ∀ c ∈ cs, Ordinary c) (field : List Char) :
    follow { rows, fields, field, place := .bare } cs =
      some { rows, fields, field := field ++ cs, place := .bare } := by
  induction cs generalizing field with
  | nil => rw [follow_nil, List.append_nil]
  | cons c cs ih =>
    obtain ⟨⟨comma, _, feed⟩, plain⟩ := List.forall_mem_cons.mp plain
    have step : next? { rows, fields, field, place := .bare } c =
        some { rows, fields, field := field ++ [c], place := .bare } := by
      simp [next?, close?, take, comma, feed]
    rw [follow_cons, step, Option.bind_some, ih plain, List.append_assoc, List.singleton_append]

theorem follow_quoted (cs field : List Char) :
    follow { rows, fields, field, place := .quoted } (cs.flatMap doubled) =
      some { rows, fields, field := field ++ cs, place := .quoted } := by
  induction cs generalizing field with
  | nil => rw [List.flatMap_nil, follow_nil, List.append_nil]
  | cons c cs ih =>
    have step : follow { rows, fields, field, place := .quoted } (doubled c) =
        some { rows, fields, field := field ++ [c], place := .quoted } := by
      by_cases mark : c = '"'
      · rw [mark]
        rfl
      · simp [doubled, follow, next?, take, mark]
    rw [List.flatMap_cons, follow_append, step, Option.bind_some, ih, List.append_assoc,
      List.singleton_append]

/--
A field has been read when its end is reached: no character of it is missing, and what comes next is
not inside its quotes.
-/
theorem exists_follow_field (rows : List (List String)) (fields : List String) (s : String) :
    ∃ place, place ≠ .quoted ∧ follow { rows, fields } (Csv.field s).toList =
      some { rows, fields, field := s.toList, place } := by
  by_cases plain : Plain s
  · rw [field_of_plain plain]
    unfold Plain at plain
    generalize s.toList = cs at plain
    cases cs with
    | nil => exact ⟨.start, nofun, rfl⟩
    | cons c cs =>
      obtain ⟨⟨comma, mark, feed⟩, plain⟩ := List.forall_mem_cons.mp plain
      have step : next? { rows, fields } c =
          some { rows, fields, field := [c], place := .bare } := by
        simp [next?, close?, take, comma, mark, feed]
      refine ⟨.bare, nofun, ?_⟩
      rw [follow_cons, step, Option.bind_some, follow_bare plain]
      rfl
  · refine ⟨.quote, nofun, ?_⟩
    have opened : follow { rows, fields } ('"' :: s.toList.flatMap doubled) =
        some { rows, fields, field := s.toList, place := .quoted } := follow_quoted _ _
    rw [field_of_not_plain plain, follow_append, opened]
    rfl

theorem next?_of_ends {r : Reader} (h : r.place ≠ .quoted) (ends : c = ',' ∨ c = '\n') :
    r.next? c = r.close? c := by
  obtain ⟨rows, fields, field, place⟩ := r
  cases place with
  | quoted => exact absurd rfl h
  | _ =>
    obtain rfl | rfl := ends
    · rfl
    · rfl

theorem follow_field (rows : List (List String)) (fields : List String) (s : String)
    (ends : c = ',' ∨ c = '\n') :
    follow { rows, fields } ((Csv.field s).toList ++ [c]) =
      close? { rows, fields, field := s.toList } c := by
  obtain ⟨place, ne, read⟩ := exists_follow_field rows fields s
  rw [follow_append, read, Option.bind_some, follow_cons, next?_of_ends ne ends]
  exact Option.bind_fun_some _

theorem follow_row (rows : List (List String)) (fields : List String) (s : String)
    (rest : List String) :
    follow { rows, fields } (row ((s :: rest).map Csv.field)).toList =
      some { rows := rows ++ [fields ++ s :: rest] } := by
  induction rest generalizing fields s with
  | nil =>
    unfold row
    rw [List.map_singleton, String.intercalate_singleton, String.toList_append]
    refine (follow_field rows fields s (.inr rfl)).trans ?_
    simp [close?]
  | cons t rest ih =>
    have split : (row ((s :: t :: rest).map Csv.field)).toList =
        (Csv.field s).toList ++ [','] ++ (row ((t :: rest).map Csv.field)).toList := by
      unfold row
      simp only [List.map_cons, String.intercalate_cons_cons, String.toList_append,
        List.append_assoc]
      rfl
    have first : close? { rows, fields, field := s.toList } ',' =
        some { rows, fields := fields ++ [s] } := by
      simp [close?]
    rw [split, follow_append, follow_field rows fields s (.inl rfl), first, Option.bind_some, ih,
      List.append_assoc, List.singleton_append]

/--
Each row is read behind those that were read before.
-/
theorem follow_rows (rows : List (List String)) {table : List (List String)}
    (h : ∀ fields ∈ table, fields ≠ []) :
    follow { rows } (String.join (table.map fun fields => row (fields.map Csv.field))).toList =
      some { rows := rows ++ table } := by
  induction table generalizing rows with
  | nil =>
    rw [List.append_nil]
    rfl
  | cons fields table ih =>
    obtain ⟨ne, filled⟩ := List.forall_mem_cons.mp h
    obtain ⟨s, rest, rfl⟩ := List.exists_cons_of_ne_nil ne
    rw [List.map_cons, String.join_cons, String.toList_append, follow_append, follow_row,
      Option.bind_some, ih _ filled, List.nil_append, List.append_assoc, List.singleton_append]

end Reader

/--
What is written is read, if there are fields in each row.
-/
theorem read_join {table : List (List String)} (h : ∀ fields ∈ table, fields ≠ []) :
    read (String.join (table.map fun fields => row (fields.map field))) = some table := by
  unfold read
  rw [Reader.follow_rows [] h]
  rfl

example : read "a,\"b,\"\"\"\n\n" = some [["a", "b,\""], [""]] := by decide

theorem ordinary_of_isDigit {c : Char} (digit : c.isDigit = true) : Ordinary c := by
  refine ⟨?_, ?_, ?_⟩
  · rintro rfl
    simp at digit
  · rintro rfl
    simp at digit
  · rintro rfl
    simp at digit

theorem Plain.append {s t : String} (h : Plain s) (h' : Plain t) : Plain (s ++ t) := by
  unfold Plain
  rw [String.toList_append]
  exact List.forall_mem_append.mpr ⟨h, h'⟩

theorem plain_toString (n : ℕ) : Plain (toString n) := by
  unfold Plain
  rw [Nat.toString_eq_ofList_toDigits, String.toList_ofList]
  intro c mem
  exact ordinary_of_isDigit (Nat.isDigit_of_mem_toDigits (by decide) (by decide) mem)

theorem plain_lastDigits (n : ℕ) : Plain (lastDigits n) := by
  have digit (k : ℕ) : Ordinary (k % 10).digitChar := by
    apply ordinary_of_isDigit
    rw [Nat.isDigit_digitChar]
    simp [Nat.mod_lt]
  unfold Plain lastDigits
  rw [String.toList_ofList]
  simp only [List.forall_mem_cons]
  exact ⟨digit _, digit _, digit _, nofun⟩

theorem plain_of_threePlaces {x : Float} {text : String} (h : ThreePlaces x text) : Plain text := by
  have sign (s : Float.Model.UnpackedFloat.Sign) : Plain (signText s) := by
    cases s with
    | positive => simp [signText, Plain]
    | negative => simp [signText, Plain, Ordinary]
  cases h with
  | notANumber => simp [Plain, Ordinary]
  | infinite => exact (sign _).append (by simp [Plain, Ordinary])
  | finite =>
    apply (sign _).append
    exact ((plain_toString _).append (by simp [Plain, Ordinary])).append (plain_lastDigits _)

end Csv

namespace TimingRecord

/--
The row of a record in a table: what was done, and three times with three places.
-/
inductive Shows (r : TimingRecord) : List String → Prop where
  | row {planned actual delta : String} (h : ThreePlaces r.planned planned)
    (h' : ThreePlaces r.actual actual) (h'' : ThreePlaces (r.actual - r.planned) delta) :
    Shows r [r.action, planned, actual, delta]

def cells (r : TimingRecord) : List String :=
  [r.action, fixedThree r.planned, fixedThree r.actual, fixedThree r.delta]

theorem shows_cells (r : TimingRecord) : r.Shows r.cells :=
  .row (threePlaces_fixedThree _) (threePlaces_fixedThree _) (threePlaces_fixedThree _)

theorem row_cells (r : TimingRecord) :
    Csv.row (r.cells.map Csv.field) =
      Csv.row [Csv.field r.action, fixedThree r.planned, fixedThree r.actual,
        fixedThree r.delta] := by
  have plain (x : Float) : Csv.field (fixedThree x) = fixedThree x :=
    Csv.field_of_plain (Csv.plain_of_threePlaces (threePlaces_fixedThree x))
  unfold cells
  rw [List.map_cons, List.map_cons, List.map_cons, List.map_singleton, plain, plain, plain]

end TimingRecord

namespace Tracker

variable {t other : Tracker}

theorem read_csv (t : Tracker) :
    Csv.read t.csv =
      some (["action", "planned", "actual", "delta"] :: t.records.map (·.cells)) := by
  have written : t.csv = String.join
      ((["action", "planned", "actual", "delta"] :: t.records.map (·.cells)).map fun fields =>
        Csv.row (fields.map Csv.field)) := by
    unfold csv
    dsimp only
    rw [List.map_cons, String.join_cons, List.map_map]
    simp only [Function.comp_def, TimingRecord.row_cells]
    rfl
  rw [written]
  apply Csv.read_join
  intro fields mem
  rcases List.mem_cons.mp mem with rfl | mem
  · exact List.cons_ne_nil _ _
  · obtain ⟨r, _, rfl⟩ := List.mem_map.mp mem
    exact List.cons_ne_nil _ _

theorem actions_eq_of_csv_eq (h : other.csv = t.csv) :
    other.records.map (·.action) = t.records.map (·.action) := by
  have same := congrArg Csv.read h
  rw [read_csv, read_csv] at same
  have rows := (List.cons.inj (Option.some.inj same)).2
  -- The times are lost here, since they are written with three places only.
  have actions := congrArg (List.map fun row => row.headD "") rows
  rw [List.map_map, List.map_map] at actions
  exact actions

/--
The table of a record begins with its header. What is read behind it is one row for each beat, in
their order. So the table tells which actions there were, but not how long they took to the last
place.
-/
theorem exists_read_csv_eq (t : Tracker) :
    (∃ rows, Csv.read t.csv = some (["action", "planned", "actual", "delta"] :: rows) ∧
      List.Forall₂ TimingRecord.Shows t.records rows) ∧
    ∀ other : Tracker, other.csv = t.csv →
      other.records.map (·.action) = t.records.map (·.action) := by
  constructor
  · refine ⟨_, read_csv t, ?_⟩
    rw [List.forall₂_map_right_iff]
    exact List.forall₂_same.mpr fun r _ => r.shows_cells
  · intro other same
    exact actions_eq_of_csv_eq same

/--
Records of the same beats that differ in the fourth place have the same table.
-/
theorem exists_read_csv_eq_of_near :
    let late : Tracker := { records := [⟨"say \"a, b\"", 0.5, 0.5⟩, ⟨"", 0.25, -0.0⟩] }
    let later : Tracker := { records := [⟨"say \"a, b\"", 0.5, 0.5001⟩, ⟨"", 0.25, -0.0⟩] }
    later.csv = late.csv ∧ later.records.map (·.action) = ["say \"a, b\"", ""] := by
  intro late later
  have same : later.csv = late.csv := by decide +kernel
  exact ⟨same, (exists_read_csv_eq late).2 later same⟩

end Tracker

end Stagecraft
