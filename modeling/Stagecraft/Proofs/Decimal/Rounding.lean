import Mathlib.Algebra.Order.Field.Power
import Mathlib.Algebra.Order.Floor.Semiring
import Mathlib.Data.Int.Log
import Mathlib.Data.Rat.Floor
import Mathlib.Tactic.Linarith
import Mathlib.Tactic.Positivity
import Mathlib.Tactic.Ring

/-!
This module contains the rounding of positive numbers to the numbers that doubles can have, apart
from how doubles are made. `rounded q` is the nearest one to `q`, as if there was no largest double.
Rounding keeps the order, and it keeps what is a double already.
-/

namespace Stagecraft

namespace Double

/--
The nearest natural number, and of two the even one.
-/
def halfEven (x : ℚ) : ℕ :=
  let whole := ⌊x⌋₊
  if x < whole + 1 / 2 then whole
  else if x = whole + 1 / 2 then whole + whole % 2
  else whole + 1

theorem floor_le_halfEven (x : ℚ) : ⌊x⌋₊ ≤ halfEven x := by
  unfold halfEven
  dsimp only
  split
  · exact Nat.le_refl _
  · split
    · exact Nat.le_add_right _ _
    · exact Nat.le_succ _

theorem halfEven_le_floor (x : ℚ) : halfEven x ≤ ⌊x⌋₊ + 1 := by
  unfold halfEven
  dsimp only
  split
  · exact Nat.le_succ _
  · split
    · omega
    · exact Nat.le_refl _

theorem halfEven_natCast (n : ℕ) : halfEven n = n := by
  unfold halfEven
  rw [Nat.floor_natCast, if_pos (by linarith)]

theorem halfEven_eq {x : ℚ} {n : ℕ} (nonneg : 0 ≤ x) (lower : n - 1 / 2 < x)
    (upper : x < n + 1 / 2) : halfEven x = n := by
  unfold halfEven
  dsimp only
  rcases le_or_gt (n : ℚ) x with le | lt
  · have floor : ⌊x⌋₊ = n := (Nat.floor_eq_iff nonneg).mpr ⟨le, by linarith⟩
    rw [floor, if_pos upper]
  · have pos : 0 < n := by
      have : (0 : ℚ) < n := by linarith
      exact_mod_cast this
    have floor : ⌊x⌋₊ = n - 1 := by
      rw [Nat.floor_eq_iff nonneg, Nat.cast_pred pos]
      constructor
      · linarith
      · linarith
    rw [floor, Nat.cast_pred pos, if_neg (by linarith), if_neg (by linarith)]
    omega

theorem halfEven_mono {x y : ℚ} (h : x ≤ y) : halfEven x ≤ halfEven y := by
  rcases (Nat.floor_mono h).lt_or_eq with lt | same
  · calc
      halfEven x ≤ ⌊x⌋₊ + 1 := halfEven_le_floor x
      _ ≤ ⌊y⌋₊ := lt
      _ ≤ halfEven y := floor_le_halfEven y
  · unfold halfEven
    rw [same]
    dsimp only
    grind

/--
The exponent of the last place that a double of the size `q` has.
-/
def lastPlace (q : ℚ) : ℤ := max (Int.log 2 q - 52) (-1074)

def rounded (q : ℚ) : ℚ := halfEven (q / 2 ^ lastPlace q) * 2 ^ lastPlace q

theorem lastPlace_mono {p q : ℚ} (hp : 0 < p) (h : p ≤ q) : lastPlace p ≤ lastPlace q := by
  have := Int.log_mono_right (b := 2) hp h
  unfold lastPlace
  omega

theorem lt_two_zpow_lastPlace (q : ℚ) : q < 2 ^ 53 * 2 ^ lastPlace q := by
  calc
    q < 2 ^ (Int.log 2 q + 1) := Int.lt_zpow_succ_log_self (by decide) q
    _ ≤ 2 ^ (53 + lastPlace q) := by
      apply zpow_le_zpow_right₀ (by norm_num)
      unfold lastPlace
      omega
    _ = 2 ^ 53 * 2 ^ lastPlace q := by
      rw [zpow_add₀ (by norm_num)]
      norm_num

/--
A number that is not among the smallest has all of its 53 places.
-/
theorem two_zpow_lastPlace_le {q : ℚ} (hq : 0 < q) (h : -1074 < lastPlace q) :
    2 ^ 52 * 2 ^ lastPlace q ≤ q := by
  have log : 52 + lastPlace q = Int.log 2 q := by
    unfold lastPlace at h ⊢
    omega
  calc
    2 ^ 52 * 2 ^ lastPlace q = (2 : ℚ) ^ (52 + lastPlace q) := by
      rw [zpow_add₀ (by norm_num)]
      norm_num
    _ = 2 ^ Int.log 2 q := by rw [log]
    _ ≤ q := Int.zpow_log_le_self (by decide) hq

theorem halfEven_le (q : ℚ) : halfEven (q / 2 ^ lastPlace q) ≤ 2 ^ 53 := by
  have : q / 2 ^ lastPlace q ≤ ((2 ^ 53 : ℕ) : ℚ) := by
    rw [div_le_iff₀ (by positivity)]
    exact_mod_cast (lt_two_zpow_lastPlace q).le
  calc
    halfEven (q / 2 ^ lastPlace q) ≤ halfEven ((2 ^ 53 : ℕ) : ℚ) := halfEven_mono this
    _ = 2 ^ 53 := halfEven_natCast _

theorem le_halfEven {q : ℚ} (hq : 0 < q) (h : -1074 < lastPlace q) :
    2 ^ 52 ≤ halfEven (q / 2 ^ lastPlace q) := by
  have : ((2 ^ 52 : ℕ) : ℚ) ≤ q / 2 ^ lastPlace q := by
    rw [le_div_iff₀ (by positivity)]
    exact_mod_cast two_zpow_lastPlace_le hq h
  calc
    2 ^ 52 = halfEven ((2 ^ 52 : ℕ) : ℚ) := (halfEven_natCast _).symm
    _ ≤ halfEven (q / 2 ^ lastPlace q) := halfEven_mono this

theorem rounded_mono {p q : ℚ} (hp : 0 < p) (h : p ≤ q) : rounded p ≤ rounded q := by
  unfold rounded
  rcases (lastPlace_mono hp h).lt_or_eq with lt | same
  · -- The largest number with the places of `p` is not above the smallest with those of `q`.
    have big := le_halfEven (hp.trans_le h) (lt.trans_le' (le_max_right _ _))
    calc
      (halfEven (p / 2 ^ lastPlace p) : ℚ) * 2 ^ lastPlace p ≤ 2 ^ 53 * 2 ^ lastPlace p := by
        gcongr
        exact_mod_cast halfEven_le p
      _ = 2 ^ 52 * 2 ^ (lastPlace p + 1) := by
        rw [zpow_add_one₀ (by norm_num)]
        ring
      _ ≤ 2 ^ 52 * 2 ^ lastPlace q := by
        gcongr
        · norm_num
        · exact lt
      _ ≤ halfEven (q / 2 ^ lastPlace q) * 2 ^ lastPlace q := by
        gcongr
        exact_mod_cast big
  · rw [same]
    gcongr
    apply halfEven_mono
    gcongr

/--
A mantissa and an exponent as doubles have them: with 53 places if the exponent is not the least.
-/
structure Canonical (m : ℕ) (e : ℤ) : Prop where
  pos : 0 < m
  lt : m < 2 ^ 53
  least : -1074 ≤ e
  le : -1074 < e → 2 ^ 52 ≤ m

theorem Canonical.size_pos {m : ℕ} {e : ℤ} (h : Canonical m e) : (0 : ℚ) < m * 2 ^ e :=
  mul_pos (by exact_mod_cast h.pos) (by positivity)

theorem lastPlace_eq {q : ℚ} {e : ℤ} (hq : 0 < q) (least : -1074 ≤ e) (lt : q < 2 ^ 53 * 2 ^ e)
    (le : -1074 < e → 2 ^ 52 * 2 ^ e ≤ q) : lastPlace q = e := by
  have upper : Int.log 2 q < 53 + e := by
    rw [← Int.lt_zpow_iff_log_lt (by decide) hq, Nat.cast_two, zpow_add₀ (by norm_num)]
    exact_mod_cast lt
  unfold lastPlace
  rcases least.lt_or_eq with lt | same
  · have lower : 52 + e ≤ Int.log 2 q := by
      rw [← Int.zpow_le_iff_le_log (by decide) hq, Nat.cast_two, zpow_add₀ (by norm_num)]
      exact_mod_cast le lt
    omega
  · omega

theorem Canonical.lastPlace_eq {m : ℕ} {e : ℤ} (h : Canonical m e) :
    lastPlace (m * 2 ^ e) = e := by
  apply Double.lastPlace_eq h.size_pos h.least
  · gcongr
    exact_mod_cast h.lt
  · intro lt
    gcongr
    exact_mod_cast h.le lt

theorem Canonical.rounded_eq {m : ℕ} {e : ℤ} (h : Canonical m e) :
    rounded (m * 2 ^ e) = m * 2 ^ e := by
  unfold rounded
  rw [h.lastPlace_eq, mul_div_assoc, div_self (by positivity), mul_one, halfEven_natCast]

theorem Canonical.eq_of_mul_eq {m n : ℕ} {e f : ℤ} (h : Canonical m e) (h' : Canonical n f)
    (same : (m : ℚ) * 2 ^ e = n * 2 ^ f) : m = n ∧ e = f := by
  have exponents : e = f := by rw [← h.lastPlace_eq, ← h'.lastPlace_eq, same]
  subst exponents
  refine ⟨?_, rfl⟩
  have := mul_right_cancel₀ (by positivity) same
  exact_mod_cast this

end Double

end Stagecraft
