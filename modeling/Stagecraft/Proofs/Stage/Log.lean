import Mathlib.Data.List.Induction
import Mathlib.Order.Bounds.Basic
import Mathlib.Order.Nat
import Stagecraft.Stage.Rehearsal

/-!
This module contains how a stage for dry runs is told from its log. What stands on it, in which
order, and what its clock shows are all determined by the calls that were made, and the log has
these calls.
-/

namespace Stagecraft

namespace StageOp

def seconds? : StageOp → Option Float
  | .add _ | .remove _ => none
  | .play _ seconds | .wait seconds => some seconds

/--
Whether a call puts `object` on the stage or takes it off.
-/
def moves (object : String) : StageOp → Bool
  | .add other | .remove other => other = object
  | .play .. | .wait _ => false

/--
The call at `place` adds `object`, and no call after it removes it.
-/
structure Stays (log : List StageOp) (object : String) (place : Nat) : Prop where
  added : log[place]? = some (.add object)
  removed : ∀ other, log[other]? = some (.remove object) → other < place

/--
The call at `place` brought `object` on the stage: it is the first that added it since it was
removed for the last time.
-/
def Enters (log : List StageOp) (object : String) (place : Nat) : Prop :=
  IsLeast {place | Stays log object place} place

def Precedes (log : List StageOp) (first second : String) : Prop :=
  ∃ m n, Enters log first m ∧ Enters log second n ∧ m < n

variable {log : List StageOp} {op : StageOp} {object first second : String} {place : Nat}

theorem Stays.lt (h : Stays log object place) : place < log.length :=
  (List.getElem?_eq_some_iff.mp h.added).1

theorem getElem?_concat_eq_some_iff {other : StageOp} :
    (log ++ [op])[place]? = some other ↔
      log[place]? = some other ∨ place = log.length ∧ op = other := by
  rw [List.getElem?_append]
  split
  next lt =>
    have : place ≠ log.length := by omega
    simp [this]
  next le =>
    rw [List.getElem?_eq_none (Nat.le_of_not_lt le), List.getElem?_singleton]
    split
    next => simp; omega
    next => simp; omega

/--
A further call keeps an object on the stage unless it removes it, and brings one if it adds it.
-/
theorem stays_concat_iff :
    Stays (log ++ [op]) object place ↔
      op ≠ .remove object ∧
        (Stays log object place ∨ place = log.length ∧ op = .add object) := by
  constructor
  · rintro ⟨added, removed⟩
    have kept : op ≠ .remove object := by
      intro gone
      have lt := removed log.length (getElem?_concat_eq_some_iff.mpr (.inr ⟨rfl, gone⟩))
      have := (List.getElem?_eq_some_iff.mp added).1
      rw [List.length_append, List.length_singleton] at this
      omega
    refine ⟨kept, ?_⟩
    rcases getElem?_concat_eq_some_iff.mp added with before | now
    · left
      refine ⟨before, ?_⟩
      intro other gone
      exact removed other (getElem?_concat_eq_some_iff.mpr (.inl gone))
    · exact .inr now
  · rintro ⟨kept, before | ⟨rfl, now⟩⟩
    · refine ⟨getElem?_concat_eq_some_iff.mpr (.inl before.added), ?_⟩
      intro other gone
      rcases getElem?_concat_eq_some_iff.mp gone with gone | ⟨_, gone⟩
      · exact before.removed other gone
      · exact absurd gone kept
    · refine ⟨getElem?_concat_eq_some_iff.mpr (.inr ⟨rfl, now⟩), ?_⟩
      intro other gone
      rcases getElem?_concat_eq_some_iff.mp gone with gone | ⟨_, gone⟩
      · exact (List.getElem?_eq_some_iff.mp gone).1
      · exact absurd gone kept

theorem exists_stays_concat_iff :
    (∃ place, Stays (log ++ [op]) object place) ↔
      op ≠ .remove object ∧ ((∃ place, Stays log object place) ∨ op = .add object) := by
  simp only [stays_concat_iff, exists_and_left, exists_or, exists_eq_left]

/--
An object that was added since it was removed for the last time is one whose last move was to be
added.
-/
theorem exists_stays_iff (log : List StageOp) (object : String) :
    (∃ place, Stays log object place) ↔
      (log.filter (·.moves object)).getLast? = some (.add object) := by
  -- The last call decides if it moves the object, and else the calls before it do.
  induction log using List.reverseRecOn with
  | nil =>
    simp only [List.filter_nil, List.getLast?_nil, reduceCtorEq, iff_false]
    rintro ⟨place, h⟩
    exact Nat.not_lt_zero place h.lt
  | append_singleton log op ih =>
    rw [exists_stays_concat_iff, ih, List.filter_append, List.filter_cons, List.filter_nil]
    cases moves : op.moves object with
    | true =>
      cases op with
      | add other | remove other =>
        obtain rfl : other = object := by simpa [StageOp.moves] using moves
        simp
      | play | wait => cases moves
    | false =>
      have stays : op ≠ .remove object ∧ op ≠ .add object := by
        constructor
        · rintro rfl
          simp [StageOp.moves] at moves
        · rintro rfl
          simp [StageOp.moves] at moves
      simp [stays]

theorem exists_enters (h : ∃ place, Stays log object place) : ∃ place, Enters log object place := by
  classical
  exact ⟨Nat.find h, Nat.isLeast_find h⟩

theorem Enters.concat (h : Enters log object place) (kept : op ≠ .remove object) :
    Enters (log ++ [op]) object place := by
  refine ⟨stays_concat_iff.mpr ⟨kept, .inl h.1⟩, ?_⟩
  intro other stays
  rcases (stays_concat_iff.mp stays).2 with before | ⟨rfl, _⟩
  · exact h.2 before
  · exact h.1.lt.le

theorem enters_concat_add (absent : ¬∃ place, Stays log object place) :
    Enters (log ++ [.add object]) object log.length := by
  refine ⟨stays_concat_iff.mpr ⟨nofun, .inr ⟨rfl, rfl⟩⟩, ?_⟩
  intro other stays
  rcases (stays_concat_iff.mp stays).2 with before | ⟨rfl, _⟩
  · exact absurd ⟨other, before⟩ absent
  · exact Nat.le_refl _

theorem Precedes.concat (h : Precedes log first second) (kept : op ≠ .remove first)
    (kept' : op ≠ .remove second) : Precedes (log ++ [op]) first second := by
  obtain ⟨m, n, enters, enters', lt⟩ := h
  exact ⟨m, n, enters.concat kept, enters'.concat kept', lt⟩

theorem precedes_concat_add (present : ∃ place, Stays log first place)
    (absent : ¬∃ place, Stays log second place) : Precedes (log ++ [.add second]) first second := by
  obtain ⟨m, enters⟩ := exists_enters present
  exact ⟨m, log.length, enters.concat nofun, enters_concat_add absent, enters.1.lt⟩

theorem Precedes.ne (h : Precedes log first second) : first ≠ second := by
  rintro rfl
  obtain ⟨m, n, enters, enters', lt⟩ := h
  exact lt.ne (IsLeast.unique enters enters')

end StageOp

theorem Clock.seconds_foldl_advance (durations : List Float) (c : Clock) :
    (durations.foldl advance c).seconds =
      (durations.filter fun seconds => seconds.isFinite ∧ 0 < seconds).foldl (· + ·) c.seconds := by
  induction durations generalizing c with
  | nil => rfl
  | cons seconds rest ih =>
    rw [List.foldl_cons, ih, List.filter_cons]
    by_cases counts : seconds.isFinite ∧ 0 < seconds
    · rw [advance, if_pos counts, if_pos (by simpa using counts), List.foldl_cons]
    · rw [advance, if_neg counts, if_neg (by simpa using counts)]

namespace Rehearsal

open StageOp

theorem ops_perform (r : Rehearsal) (op : StageOp) : (Stage.perform r op).ops = r.ops ++ [op] := by
  cases op with
  | _ => rfl

theorem ops_foldl_perform (ops : List StageOp) (r : Rehearsal) :
    (ops.foldl Stage.perform r).ops = r.ops ++ ops := by
  induction ops generalizing r with
  | nil => rw [List.foldl_nil, List.append_nil]
  | cons op rest ih =>
    rw [List.foldl_cons, ih, ops_perform, List.append_assoc, List.singleton_append]

theorem clock_perform (r : Rehearsal) (op : StageOp) :
    (Stage.perform r op).clock = (op.seconds?.toList).foldl Clock.advance r.clock := by
  cases op with
  | _ => rfl

/--
What stands on a stage is told by a log: the objects that it adds and does not remove later, in the
order in which it brings them.
-/
structure Lineup (objects : List String) (log : List StageOp) : Prop where
  mem_iff (object : String) : object ∈ objects ↔ ∃ place, Stays log object place
  ordered : objects.Pairwise (Precedes log)

variable {r : Rehearsal} {log : List StageOp}

theorem Lineup.concat {objects : List String} (h : Lineup objects log) {op : StageOp}
    (kept : ∀ object, op ≠ .remove object) (known : ∀ object, op = .add object → object ∈ objects) :
    Lineup objects (log ++ [op]) := by
  refine ⟨?_, ?_⟩
  · intro object
    rw [exists_stays_concat_iff, ← h.mem_iff]
    simp only [kept object, ne_eq, not_false_eq_true, true_and]
    exact ⟨.inl, fun mem => mem.elim id (known object)⟩
  · exact h.ordered.imp fun precedes => precedes.concat (kept _) (kept _)

theorem Lineup.add {objects : List String} (h : Lineup objects log) {object : String}
    (absent : object ∉ objects) : Lineup (objects ++ [object]) (log ++ [.add object]) := by
  refine ⟨?_, ?_⟩
  · intro other
    rw [exists_stays_concat_iff, ← h.mem_iff, List.mem_append, List.mem_singleton]
    simp only [ne_eq, reduceCtorEq, not_false_eq_true, true_and, StageOp.add.injEq]
    exact or_congr_right eq_comm
  · rw [List.pairwise_append]
    refine ⟨?_, ?_, ?_⟩
    · exact h.ordered.imp fun precedes => precedes.concat nofun nofun
    · exact List.pairwise_singleton _ _
    · intro other mem _ last
      obtain rfl := List.mem_singleton.mp last
      apply precedes_concat_add
      · exact (h.mem_iff other).mp mem
      · rwa [← h.mem_iff]

theorem Lineup.remove {objects : List String} (h : Lineup objects log) (object : String) :
    Lineup (objects.filter (· ≠ object)) (log ++ [.remove object]) := by
  have kept {other : String} (mem : other ∈ objects.filter (· ≠ object)) :
      (.remove object : StageOp) ≠ .remove other := by
    have ne : other ≠ object := by simpa using (List.mem_filter.mp mem).2
    simpa using ne.symm
  refine ⟨?_, ?_⟩
  · intro other
    rw [exists_stays_concat_iff, ← h.mem_iff, List.mem_filter]
    simp only [ne_eq, StageOp.remove.injEq, reduceCtorEq, or_false, decide_not, Bool.not_eq_true',
      decide_eq_false_iff_not]
    rw [and_comm, eq_comm]
  · have ordered := h.ordered.filter (· ≠ object)
    apply ordered.imp_of_mem
    intro first second mem mem' precedes
    exact precedes.concat (kept mem) (kept mem')

theorem Lineup.perform (h : Lineup r.objects log) (op : StageOp) :
    Lineup (Stage.perform r op).objects (log ++ [op]) := by
  cases op with
  | add object =>
    change Lineup (if r.contains object then r.objects else r.objects ++ [object]) _
    split
    next known =>
      apply h.concat
      · simp
      · intro other same
        cases same
        simpa [contains] using known
    next unknown =>
      apply h.add
      simpa [contains] using unknown
  | remove object => exact h.remove object
  | play | wait =>
    apply h.concat
    · simp
    · simp

theorem lineup_foldl_perform (h : Lineup r.objects log) (ops : List StageOp) :
    Lineup (ops.foldl Stage.perform r).objects (log ++ ops) := by
  induction ops generalizing r log with
  | nil => rwa [List.append_nil]
  | cons op rest ih =>
    rw [List.foldl_cons, List.append_cons]
    exact ih (h.perform op)

theorem lineup_nil : Lineup ({} : Rehearsal).objects [] where
  mem_iff object := by
    rw [exists_stays_iff]
    simp
  ordered := .nil

theorem clock_foldl_perform (ops : List StageOp) (r : Rehearsal) :
    (ops.foldl Stage.perform r).clock = (ops.filterMap seconds?).foldl Clock.advance r.clock := by
  induction ops generalizing r with
  | nil => rfl
  | cons op rest ih =>
    rw [List.foldl_cons, ih, clock_perform, ← List.foldl_append]
    congr 1
    cases op with
    | _ => rfl

/--
After any calls on an empty stage its log has exactly these calls. An object stands on it if the
last call that moved it has added it, and it stands there once; the objects stand in the order of
the calls that brought them. The clock has gone on by the seconds of the calls, one after the other.
-/
theorem foldl_perform_told (calls : List StageOp) :
    let r : Rehearsal := calls.foldl Stage.perform {}
    r.ops = calls ∧ r.objects.Nodup ∧
    (∀ object, object ∈ r.objects ↔
      (calls.filter (·.moves object)).getLast? = some (.add object)) ∧
    (∀ object ∈ r.objects, ∃ place, Enters calls object place) ∧
    r.objects.Pairwise (Precedes calls) ∧
    Stage.elapsed r = ((calls.filterMap seconds?).foldl Clock.advance {}).seconds ∧
    r.playCount = calls.countP (·.isPlay) := by
  intro r
  have logged : r.ops = calls := ops_foldl_perform calls {}
  have lineup : Lineup r.objects calls := lineup_foldl_perform lineup_nil calls
  refine ⟨logged, ?_, ?_, ?_, lineup.ordered, ?_, ?_⟩
  · exact lineup.ordered.imp Precedes.ne
  · intro object
    rw [lineup.mem_iff, exists_stays_iff]
  · intro object mem
    exact exists_enters ((lineup.mem_iff object).mp mem)
  · exact congrArg Clock.seconds (clock_foldl_perform calls {})
  · unfold playCount
    rw [logged]

/--
The board leaves and comes back, so it stands last; the queue is added again and keeps its place.
-/
theorem foldl_perform_told_of_return :
    let calls : List StageOp :=
      [.add "board", .add "queue", .remove "board", .add "board", .add "queue"]
    let r : Rehearsal := calls.foldl Stage.perform {}
    r.objects = ["queue", "board"] ∧ Precedes calls "queue" "board" ∧
      ∃ place, Enters calls "board" place := by
  intro calls r
  have stage : r.objects = ["queue", "board"] := rfl
  obtain ⟨_, _, _, enters, ordered, _⟩ := foldl_perform_told calls
  have precedes : ["queue", "board"].Pairwise (Precedes calls) := ordered
  refine ⟨stage, ?_, enters "board" ?_⟩
  · exact List.rel_of_pairwise_cons precedes (List.mem_singleton.mpr rfl)
  · exact stage ▸ List.mem_cons_of_mem _ (List.mem_singleton.mpr rfl)

end Rehearsal

end Stagecraft
