import Stagecraft.Proofs.Decimal.Unpacked

/-!
This module contains what the operations on unpacked doubles make of sizes: the nearest double of
the sum, of the difference, of the product and of the quotient.
-/

namespace Stagecraft

namespace Double

open Float.Model (UnpackedFloat Format totalExponent)
open Float.Model.UnpackedFloat

theorem rounded_zero : rounded 0 = 0 := by
  unfold rounded
  rw [zero_div, show (0 : ℚ) = (0 : ℕ) from rfl, halfEven_natCast, Nat.cast_zero, zero_mul]

theorem rounded_nonneg (q : ℚ) : 0 ≤ rounded q := by
  unfold rounded
  positivity

theorem IsSize.rounded_eq {s : Sign} {r : ℚ} {u : UnpackedFloat} (h : IsSize s r u) :
    rounded r = r := by
  cases h with
  | zero size => rw [size, rounded_zero]
  | finite h size => rw [size, h.rounded_eq]

theorem size_pos {m : ℕ} (pos : 0 < m) (e : ℤ) : (0 : ℚ) < m * 2 ^ e :=
  mul_pos (by exact_mod_cast pos) (by positivity)

theorem le_lastPlace {q : ℚ} {e : ℤ} (hq : 0 < q) (h : 2 ^ (52 : ℤ) * 2 ^ e ≤ q ∨ e ≤ -1074) :
    e ≤ lastPlace q := by
  unfold lastPlace
  cases h with
  | inl full =>
    rw [← zpow_add₀ two_ne_zero] at full
    have := (Int.zpow_le_iff_le_log (b := 2) (by decide) hq).mp (by exact_mod_cast full)
    omega
  | inr least => omega

theorem tells_exact_div (m : ℕ) (e : ℤ) :
    Tells (.ofMantissaAndAccuracy m .exact) (m * 2 ^ e / 2 ^ e) := by
  rw [mul_div_assoc, div_self (by positivity), mul_one]
  exact tells_exact m

theorem log_mul_zpow {m : ℕ} (pos : 0 < m) (e : ℤ) :
    Int.log 2 ((m : ℚ) * 2 ^ e) = m.log2 + e :=
  log_eq_of_tells (size_pos pos e) (tells_exact_div m e) pos

theorem decreaseExponent_eq (m : ℕ) (e t : ℤ) :
    decreaseExponent m e t = (m * 2 ^ (e - min e t).toNat, min e t) := by
  have amount : (e - t).toNat = (e - min e t).toNat := by omega
  unfold decreaseExponent
  dsimp only
  rw [Nat.shiftLeft_eq, amount, Prod.mk.injEq]
  exact ⟨rfl, by omega⟩

theorem decreased_size (m : ℕ) {e t : ℤ} (le : t ≤ e) :
    ((m * 2 ^ (e - t).toNat : ℕ) : ℚ) * 2 ^ t = m * 2 ^ e := by
  push_cast
  rw [mul_assoc, ← zpow_natCast, ← zpow_add₀ two_ne_zero]
  congr 2
  omega

theorem isSize_round (s : Sign) {m : ℕ} (pos : 0 < m) (e : ℤ) :
    IsSize s (rounded (m * 2 ^ e)) (UnpackedFloat.round .binary64 s m e) := by
  have target : Format.binary64.targetExponent (totalExponent m e) = lastPlace (m * 2 ^ e) := by
    rw [targetExponent_eq, ← log_mul_zpow pos]
    rfl
  unfold UnpackedFloat.round
  dsimp only
  rw [target, decreaseExponent_eq]
  apply isSize_roundWithAccuracy s (size_pos pos e) _ (min_le_right _ _)
  generalize lastPlace (m * 2 ^ e) = t
  rw [← decreased_size m (min_le_left e t)]
  apply tells_exact_div

/--
The sum or the difference of two mantissas that have the same exponent.
-/
theorem isSize_normalize {n : ℤ} (nonneg : 0 ≤ n) (e : ℤ) :
    IsSize .positive (rounded (n * 2 ^ e)) (UnpackedFloat.normalize .binary64 n e .positive) := by
  obtain ⟨m, rfl⟩ := Int.eq_ofNat_of_zero_le nonneg
  unfold UnpackedFloat.normalize
  rcases Nat.eq_zero_or_pos m with rfl | pos
  · rw [Int.natCast_zero, Int.cast_zero, zero_mul, rounded_zero]
    exact .zero rfl
  · rw [Int.compare_eq_gt.mpr (by omega), Int.toNat_natCast, Int.cast_natCast]
    exact isSize_round .positive pos e

variable {p q : ℚ} {u v : UnpackedFloat}

theorem IsSize.add (h : IsSize .positive p u) (h' : IsSize .positive q v) :
    IsSize .positive (rounded (p + q)) (UnpackedFloat.add .binary64 u v) := by
  cases h with
  | zero size =>
    rw [size, zero_add, h'.rounded_eq]
    cases h' with
    | zero size' => exact .zero size'
    | finite h' size' => exact .finite h' size'
  | @finite m e pos h size =>
    cases h' with
    | zero size' =>
      rw [size', add_zero, size, h.rounded_eq]
      exact .finite h rfl
    | @finite n f pos' h' size' =>
      have sum := isSize_normalize (Int.add_nonneg (Int.natCast_nonneg
        (m * 2 ^ (e - min e f).toNat)) (Int.natCast_nonneg (n * 2 ^ (f - min e f).toNat)))
        (min e f)
      rw [Int.cast_add, Int.cast_natCast, Int.cast_natCast, add_mul,
        decreased_size m (min_le_left e f), decreased_size n (min_le_right e f)] at sum
      unfold UnpackedFloat.add
      dsimp only
      rw [decreaseExponent_eq, decreaseExponent_eq, min_eq_right (min_le_left e f),
        min_eq_right (min_le_right e f), size, size']
      exact sum

theorem IsSize.sub (h : IsSize .positive p u) (h' : IsSize .positive q v) (le : q ≤ p) :
    IsSize .positive (rounded (p - q)) (UnpackedFloat.sub .binary64 u v) := by
  cases h' with
  | zero size' =>
    rw [size', sub_zero, h.rounded_eq]
    cases h with
    | zero size => exact .zero size
    | finite h size => exact .finite h size
  | @finite n f pos' h' size' =>
    cases h with
    | zero size =>
      have := h'.size_pos
      linarith
    | @finite m e pos h size =>
      rw [size, size', ← decreased_size m (min_le_left e f),
        ← decreased_size n (min_le_right e f)] at le
      have mantissas := Nat.cast_le.mp (le_of_mul_le_mul_right le (by positivity))
      have difference := isSize_normalize (Int.sub_nonneg_of_le (Int.ofNat_le.mpr mantissas))
        (min e f)
      rw [Int.cast_sub, Int.cast_natCast, Int.cast_natCast, sub_mul,
        decreased_size m (min_le_left e f), decreased_size n (min_le_right e f)] at difference
      unfold UnpackedFloat.sub
      dsimp only
      rw [decreaseExponent_eq, decreaseExponent_eq, min_eq_right (min_le_left e f),
        min_eq_right (min_le_right e f), size, size']
      exact difference

theorem IsSize.infinity_add {s : Sign} (h : IsSize s p u) :
    UnpackedFloat.add .binary64 (.infinity .positive) u = .infinity .positive := by
  cases h with
  | _ => rfl

theorem IsSize.infinity_sub {s : Sign} (h : IsSize s p u) :
    UnpackedFloat.sub .binary64 (.infinity .positive) u = .infinity .positive := by
  cases h with
  | _ => rfl

theorem IsSize.infinity_beq (h : IsSize .positive p u) :
    UnpackedFloat.beq (.infinity .positive) u = false := by
  cases h with
  | _ => rfl

theorem IsSize.eq_of_beq (h : IsSize .positive p u) (h' : IsSize .positive q v)
    (same : u.beq v = true) : u = v := by
  cases h with
  | zero =>
    cases h' with
    | zero => rfl
    | finite => cases same
  | @finite m e pos =>
    cases h' with
    | zero => cases same
    | @finite n f pos' =>
      have order : (compare e f).then (compare m n) = .eq := by
        unfold UnpackedFloat.beq UnpackedFloat.compare at same
        simpa using same
      obtain ⟨exponent, mantissa⟩ := Ordering.then_eq_eq.mp order
      rw [Int.compare_eq_eq] at exponent
      rw [Nat.compare_eq_eq] at mantissa
      subst exponent mantissa
      rfl

theorem IsSize.le_infinity (h : IsSize .positive p u) :
    u.le (.infinity .positive) = true := by
  cases h with
  | _ => rfl

/--
Exponents come first: a larger one means a larger size, since only the mantissas of the least
exponent do not fill their places.
-/
theorem IsSize.le (h : IsSize .positive p u) (h' : IsSize .positive q v) (le : p ≤ q) :
    u.le v = true := by
  cases h with
  | zero =>
    cases h' with
    | _ => rfl
  | @finite m e pos h size =>
    cases h' with
    | zero none =>
      subst size none
      exact absurd le (size_pos pos e).not_ge
    | @finite n f pos' h' size' =>
      subst size size'
      have below : e ≤ f := by
        by_contra above
        have full : (2 : ℚ) ^ (52 : ℤ) ≤ m := by exact_mod_cast h.le (by have := h'.least; omega)
        have part : (n : ℚ) < 2 ^ (53 : ℤ) := by exact_mod_cast h'.lt
        have : (n : ℚ) * 2 ^ f < m * 2 ^ e := by
          calc
            (n : ℚ) * 2 ^ f < 2 ^ (53 : ℤ) * 2 ^ f := by gcongr
            _ = 2 ^ (52 + (f + 1)) := by rw [← zpow_add₀ two_ne_zero]; congr 1; ring
            _ ≤ 2 ^ (52 + e) := zpow_le_zpow_right₀ one_le_two (by omega)
            _ = 2 ^ (52 : ℤ) * 2 ^ e := zpow_add₀ two_ne_zero _ _
            _ ≤ m * 2 ^ e := by gcongr
        linarith
      change ((compare e f).then (compare m n)).isLE = true
      rw [Ordering.isLE_then_iff_or, Int.compare_eq_lt, Int.compare_eq_eq, Nat.isLE_compare]
      rcases below.lt_or_eq with lt | rfl
      · exact .inl lt
      · have : (m : ℚ) ≤ n := le_of_mul_le_mul_right le (by positivity)
        exact .inr ⟨rfl, by exact_mod_cast this⟩

theorem isSize_mul (s t : Sign) {m n : ℕ} {e f : ℤ} (pos : 0 < m) (pos' : 0 < n)
    (h : 2 ^ 52 ≤ m * n ∨ e + f ≤ -1074) :
    IsSize (s * t) (rounded (m * 2 ^ e * (n * 2 ^ f)))
      (UnpackedFloat.mul .binary64 (.finite s m e pos) (.finite t n f pos')) := by
  have product : (m : ℚ) * 2 ^ e * (n * 2 ^ f) = (m * n : ℕ) * 2 ^ (e + f) := by
    rw [zpow_add₀ two_ne_zero]
    push_cast
    ring
  have positive := size_pos (Nat.mul_pos pos pos') (e + f)
  rw [product]
  apply isSize_roundWithAccuracy (s * t) positive (tells_exact_div _ _)
  apply le_lastPlace positive
  apply h.imp_left
  intro full
  have places : (2 : ℚ) ^ (52 : ℤ) ≤ (m * n : ℕ) := by exact_mod_cast full
  exact mul_le_mul_of_nonneg_right places (by positivity)

theorem IsSize.mul {s t : Sign} (h : IsSize s p u) (h' : IsSize t q v) :
    IsSize (s * t) (rounded (p * q)) (UnpackedFloat.mul .binary64 u v) := by
  cases h with
  | zero size =>
    rw [size, zero_mul, rounded_zero]
    cases h' with
    | zero => exact .zero rfl
    | finite => exact .zero rfl
  | @finite m e pos h size =>
    cases h' with
    | zero size' =>
      rw [size', mul_zero, rounded_zero]
      exact .zero rfl
    | @finite n f pos' h' size' =>
      rw [size, size']
      apply isSize_mul
      by_cases full : 2 ^ 52 ≤ m * n
      · exact .inl full
      · -- Neither of them has all of its places, so both have the least exponent.
        right
        have := h.least
        have := h'.least
        have left : ¬ -1074 < e := fun more => full (le_mul_of_le_of_one_le (h.le more) pos')
        have right : ¬ -1074 < f := fun more =>
          full (le_mul_of_one_le_of_le pos (h'.le more))
        omega

theorem log_div_lower {m n : ℕ} (pos : 0 < m) (pos' : 0 < n) (e f : ℤ) :
    (m.log2 : ℤ) + e - (n.log2 + f) - 1 ≤ Int.log 2 ((m : ℚ) * 2 ^ e / (n * 2 ^ f)) := by
  have lower := Int.zpow_log_le_self (b := 2) (by decide) (size_pos pos e)
  have upper := Int.lt_zpow_succ_log_self (b := 2) (by decide) ((n : ℚ) * 2 ^ f)
  rw [log_mul_zpow pos] at lower
  rw [log_mul_zpow pos'] at upper
  rw [← Int.zpow_le_iff_le_log (by decide) (div_pos (size_pos pos e) (size_pos pos' f)),
    le_div_iff₀ (size_pos pos' f)]
  push_cast at lower upper ⊢
  calc
    (2 : ℚ) ^ ((m.log2 : ℤ) + e - (n.log2 + f) - 1) * (n * 2 ^ f) ≤
        2 ^ ((m.log2 : ℤ) + e - (n.log2 + f) - 1) * 2 ^ ((n.log2 : ℤ) + f + 1) := by gcongr
    _ = 2 ^ ((m.log2 : ℤ) + e) := by
      rw [← zpow_add₀ two_ne_zero]
      congr 1
      ring
    _ ≤ m * 2 ^ e := lower

/--
The quotient has enough places, even if it is smaller than the difference of the exponents says.
-/
theorem isSize_div (s t : Sign) {m n : ℕ} (pos : 0 < m) (pos' : 0 < n) (e f : ℤ) :
    IsSize (s / t) (rounded (m * 2 ^ e / (n * 2 ^ f)))
      (UnpackedFloat.div .binary64 (.finite s m e pos) (.finite t n f pos')) := by
  have positive := div_pos (size_pos pos e) (size_pos pos' f)
  have lower := log_div_lower pos pos' e f
  have bits : (Format.binary64.mantissaBits : ℤ) = 53 := rfl
  have least : Format.binary64.minExponent = -1074 := rfl
  unfold UnpackedFloat.div divCore
  dsimp only
  generalize exponent : min (e - f) (Format.binary64.targetExponent
    (totalExponent m e - totalExponent n f)) = g
  have le : g ≤ lastPlace ((m : ℚ) * 2 ^ e / (n * 2 ^ f)) := by
    rw [← exponent]
    unfold lastPlace Format.targetExponent totalExponent
    omega
  apply isSize_roundWithAccuracy (s / t) positive _ le
  have shift : ((m <<< (e - f - g).toNat : ℕ) : ℚ) * 2 ^ g = m * 2 ^ (e - f) := by
    rw [Nat.shiftLeft_eq]
    exact decreased_size m (by omega)
  have size : (m : ℚ) * 2 ^ e / (n * 2 ^ f) / 2 ^ g =
      (m <<< (e - f - g).toNat / n : ℕ) + (m <<< (e - f - g).toNat % n : ℕ) / n := by
    have den : (n : ℚ) ≠ 0 := by exact_mod_cast pos'.ne'
    rw [zpow_sub₀ two_ne_zero] at shift
    generalize m <<< (e - f - g).toNat = k at shift ⊢
    have parts : (n : ℚ) * (k / n : ℕ) + (k % n : ℕ) = k := by exact_mod_cast Nat.div_add_mod k n
    field_simp at shift ⊢
    rw [parts, ← shift]
    ring
  rw [size]
  exact tells_fraction _ (Nat.mod_lt _ pos')

theorem IsSize.div {s t : Sign} (h : IsSize s p u) (h' : IsSize t q v) (ne : q ≠ 0) :
    IsSize (s / t) (rounded (p / q)) (UnpackedFloat.div .binary64 u v) := by
  cases h' with
  | zero size' => exact absurd size' ne
  | @finite n f pos' h' size' =>
    cases h with
    | zero size =>
      rw [size, zero_div, rounded_zero]
      exact .zero rfl
    | @finite m e pos h size =>
      rw [size, size']
      apply isSize_div

theorem isSize_ofNat (n : ℕ) :
    IsSize .positive (rounded n) (UnpackedFloat.ofNat .binary64 n) := by
  have whole := isSize_normalize (Int.natCast_nonneg n) 0
  rw [zpow_zero, mul_one, Int.cast_natCast] at whole
  exact whole

end Double

end Stagecraft
