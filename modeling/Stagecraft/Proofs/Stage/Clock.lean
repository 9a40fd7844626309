import Stagecraft.Proofs.Decimal.Nearest
import Stagecraft.Proofs.Stage.Log

/-!
This module contains the readings of a clock. Whatever is done on a stage, its clock shows a number
of seconds that does not become smaller, until there are too many of them for a double. The
difference of two readings is a number of seconds, too, as long as the later one is.
-/

namespace Stagecraft

open Double

/--
The double `x` shows the seconds `a`; those that are too many for a double are infinitely many.
-/
inductive Shows (x : Float) : WithTop ℚ → Prop where
  | finite {r : ℚ} (h : HasSize x .positive r) : Shows x r
  | infinite (h : x.toModel.unpack = .infinity .positive) : Shows x ⊤

namespace Shows

variable {x y : Float} {a b : WithTop ℚ}

theorem isFinite_iff (h : Shows x a) : x.isFinite = true ↔ a ≠ ⊤ := by
  cases h with
  | finite h => simp [h.isFinite]
  | infinite h => simp [isFinite_of_infinity h]

theorem isFinite_eq_false_iff (h : Shows x a) : x.isFinite = false ↔ a = ⊤ := by
  rw [← Bool.not_eq_true, h.isFinite_iff, not_not]

theorem add {r : ℚ} (h : Shows x a) (h' : HasSize y .positive r) :
    ∃ b, a ≤ b ∧ Shows (x + y) b := by
  cases h with
  | @finite p h =>
    rcases lt_or_ge (rounded (p + r)) limit with lt | le
    · have grows : p ≤ rounded (p + r) := h.le_rounded (le_add_of_nonneg_right h'.nonneg)
      exact ⟨_, WithTop.coe_le_coe.mpr grows, .finite ((h.add h').finite lt)⟩
    · exact ⟨⊤, le_top, .infinite ((h.add h').infinite le)⟩
  | infinite h => exact ⟨⊤, le_rfl, .infinite (h'.infinity_add h)⟩

/--
The difference is not larger than the later reading, so it is not too large for a double either.
-/
theorem sub {q : ℚ} (h : Shows x a) (h' : Shows y q) (le : a ≤ q) :
    ∃ r, HasSize (y - x) .positive r := by
  cases h' with
  | finite h' =>
    cases h with
    | @finite p h =>
      have le := WithTop.coe_le_coe.mp le
      have smaller : rounded (q - p) ≤ q :=
        h'.rounded_le (sub_nonneg_of_le le) (sub_le_self q h.nonneg)
      exact ⟨_, (h'.sub h le).finite (smaller.trans_lt h'.lt)⟩
    | infinite => exact absurd (top_le_iff.mp le) WithTop.coe_ne_top

theorem infinite_sub {p : ℚ} (h : Shows x p) (h' : Shows y ⊤) :
    (y - x).toModel.unpack = .infinity .positive := by
  cases h with
  | finite h =>
    cases h' with
    | infinite h' => exact h.infinity_sub h'

theorem isNaN (h : Shows x a) : x.isNaN = false := by
  cases h with
  | finite h => exact isNaN_of_isFinite h.isFinite
  | infinite h => exact isNaN_of_infinity h

theorem zero_le (h : Shows x a) : 0 ≤ x := by
  cases h with
  | finite h => exact h.zero_le
  | infinite h =>
    apply zero_le_of_sign?
    rw [h]
    rfl

theorem le (h : Shows x a) (h' : Shows y b) (le : a ≤ b) : x ≤ y := by
  cases h with
  | finite h =>
    cases h' with
    | finite h' => exact h.le h' (WithTop.coe_le_coe.mp le)
    | infinite h' => exact h.le_infinity h'
  | infinite h =>
    cases h' with
    | finite => exact absurd (top_le_iff.mp le) WithTop.coe_ne_top
    | infinite h' =>
      rw [le_iff, h, h']
      rfl

theorem isNaN_sub (h : Shows x ⊤) (h' : Shows y ⊤) : (y - x).isNaN = true := by
  cases h with
  | infinite h =>
    cases h' with
    | infinite h' => exact isNaN_of_notANumber (infinity_sub_infinity h' h)

end Shows

namespace Clock

theorem exists_shows_advance {c : Clock} {a : WithTop ℚ} (h : Shows c.seconds a) (delta : Float) :
    ∃ b, a ≤ b ∧ Shows (c.advance delta).seconds b := by
  unfold advance
  split
  next counts =>
    obtain ⟨s, r, size⟩ := exists_hasSize counts.1
    rw [size.sign_eq_of_zero_lt counts.2] at size
    exact h.add size
  · exact ⟨a, le_rfl, h⟩

theorem exists_shows_foldl_advance {c : Clock} {a : WithTop ℚ} (h : Shows c.seconds a)
    (deltas : List Float) : ∃ b, a ≤ b ∧ Shows (deltas.foldl advance c).seconds b := by
  induction deltas generalizing c a with
  | nil => exact ⟨a, le_rfl, h⟩
  | cons delta rest ih =>
    obtain ⟨b, le, next⟩ := exists_shows_advance h delta
    obtain ⟨d, le', last⟩ := ih next
    exact ⟨d, le.trans le', last⟩

theorem shows_zero : Shows ({} : Clock).seconds (0 : ℚ) := .finite hasSize_zero

/--
Durations that are no positive numbers might as well not have been there.
-/
theorem foldl_advance_filter (deltas : List Float) (c : Clock) :
    (deltas.filter fun delta => delta.isFinite ∧ 0 < delta).foldl advance c =
      deltas.foldl advance c := by
  have same : ((deltas.filter fun delta => delta.isFinite ∧ 0 < delta).foldl advance c).seconds =
      (deltas.foldl advance c).seconds := by
    rw [seconds_foldl_advance, seconds_foldl_advance, List.filter_filter]
    simp only [Bool.and_self]
  exact congrArg Clock.mk same

end Clock

theorem Rehearsal.exists_shows_foldl_perform {r : Rehearsal} {a : WithTop ℚ}
    (h : Shows r.clock.seconds a) (ops : List StageOp) :
    ∃ b, a ≤ b ∧ Shows (ops.foldl Stage.perform r).clock.seconds b := by
  rw [clock_foldl_perform]
  exact Clock.exists_shows_foldl_advance h _

/--
A clock never goes back: what it shows is a number of seconds or, once there are too many of them,
infinite, and whatever it is told to advance by, it shows no less afterwards. It stands still for
what is no positive number, so it shows the sum of the positive numbers that it was told. The same
holds of the clock of a stage, whatever is done there.
-/
theorem Clock.le_seconds_foldl_advance (deltas later : List Float) :
    let c : Clock := deltas.foldl advance {}
    c.seconds.isNaN = false ∧ 0 ≤ c.seconds ∧
    c.seconds ≤ (later.foldl advance c).seconds ∧
    (∀ delta : Float, ¬(delta.isFinite ∧ 0 < delta) → c.advance delta = c) ∧
    (deltas.filter fun delta => delta.isFinite ∧ 0 < delta).foldl advance {} = c ∧
    (deltas.filter fun delta => delta.isFinite ∧ 0 < delta).foldl (· + ·) 0.0 = c.seconds ∧
    ∀ calls more : List StageOp,
      let r : Rehearsal := calls.foldl Stage.perform {}
      Stage.elapsed r ≤ Stage.elapsed (more.foldl Stage.perform r) := by
  intro c
  obtain ⟨a, _, shows⟩ := exists_shows_foldl_advance shows_zero deltas
  obtain ⟨b, le, next⟩ := exists_shows_foldl_advance shows later
  refine ⟨shows.isNaN, shows.zero_le, shows.le next le, ?_, ?_, ?_, ?_⟩
  · intro delta still
    exact if_neg still
  · exact foldl_advance_filter deltas {}
  · exact (seconds_foldl_advance deltas {}).symm
  · intro calls more r
    have start : Shows ({} : Rehearsal).clock.seconds (0 : ℚ) := shows_zero
    obtain ⟨a, _, shows⟩ := Rehearsal.exists_shows_foldl_perform start calls
    obtain ⟨b, le, next⟩ := Rehearsal.exists_shows_foldl_perform shows more
    exact shows.le next le

end Stagecraft
