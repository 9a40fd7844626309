import Stagecraft.Proofs.Decimal.Digits

/-!
This module contains what comes out if a decimal number is worked out in doubles. It is the nearest
double if the coefficient and the power of ten are doubles; else it can be another one, but it is
infinite for none of the numbers that are the shortest digits of a double.
-/

namespace Stagecraft

namespace Double

open Float.Model.UnpackedFloat

variable {x y : Float} {s t : Sign} {p q r : ℚ}

theorem isNearest_ofNat (n : ℕ) : IsNearest (Float.ofNat n) .positive n := by
  have nearest := isNearest_scientific n false 0
  rw [if_neg (by decide), Nat.cast_zero, zpow_zero, mul_one] at nearest
  exact nearest

theorem IsNearest.isFinite_of_le (h : IsNearest x s p) (h' : IsNearest y t q) (nonneg : 0 ≤ p)
    (le : p ≤ q) (finite : y.isFinite = true) : x.isFinite = true := by
  rw [h.isFinite_iff]
  exact (rounded_le_rounded nonneg le).trans_lt (h'.isFinite_iff.mp finite)

end Double

namespace Decimal

open Double
open Float.Model.UnpackedFloat

variable {x : Float} {r : ℚ} {d : Decimal} {k : ℕ}

theorem isNearest_powerOfTen (k : ℕ) : IsNearest (powerOfTen k) .positive (10 ^ k) := by
  have nearest := (⟨1, k⟩ : Decimal).isNearest_toFloat
  unfold size at nearest
  rw [Nat.cast_one, one_mul, zpow_natCast] at nearest
  exact nearest

theorem hasSize_powerOfTen (le : k ≤ 308) :
    HasSize (powerOfTen k) .positive (rounded (10 ^ k)) := by
  have last : (powerOfTen 308).isFinite = true := by decide +kernel
  apply (isNearest_powerOfTen k).hasSize_rounded
  apply (isNearest_powerOfTen k).isFinite_of_le (isNearest_powerOfTen 308) (by positivity) _ last
  exact pow_le_pow_right₀ (by norm_num) le

theorem one_le_rounded (k : ℕ) : 1 ≤ rounded (10 ^ k) := by
  calc
    1 = rounded (1 : ℕ) := by rw [rounded_natCast (by decide), Nat.cast_one]
    _ ≤ rounded (10 ^ k) := by
      apply rounded_mono (by norm_num)
      rw [Nat.cast_one]
      exact one_le_pow₀ (by norm_num)

theorem hasSize_div (h : HasSize x .positive r) (le : k ≤ 308) :
    HasSize (x / powerOfTen k) .positive (rounded (r / rounded (10 ^ k))) := by
  have more := one_le_rounded k
  apply (h.div (hasSize_powerOfTen le) (by linarith)).finite
  calc
    rounded (r / rounded (10 ^ k)) ≤ r := by
      apply h.rounded_le (div_nonneg h.nonneg (by linarith))
      exact div_le_self h.nonneg more
    _ < limit := h.lt

theorem isFinite_lower (h : HasSize x .positive r) (steps : ℕ) {rest : ℕ} (le : rest ≤ 308) :
    (lower x steps rest).isFinite = true := by
  induction steps generalizing x r with
  | zero => exact (hasSize_div h le).isFinite
  | succ steps ih =>
    rw [lower]
    split
    · exact h.isFinite
    · exact ih (hasSize_div h le_rfl)

theorem hasSize_ofNat {n : ℕ} (le : n ≤ 2 ^ 64) : HasSize (Float.ofNat n) .positive (rounded n) :=
  (isNearest_ofNat n).hasSize_rounded (exponentLE_unpack_ofNat le).isFinite

theorem isNearest_evaluate (le : d.coefficient ≤ 2 ^ 64) (nonneg : 0 ≤ d.exponent)
    (table : d.exponent ≤ 308) :
    IsNearest d.evaluate .positive
      (rounded d.coefficient * rounded (10 ^ d.exponent.natAbs)) := by
  unfold evaluate
  dsimp only
  rw [if_neg (by omega), if_pos table]
  exact (hasSize_ofNat le).mul (hasSize_powerOfTen (by omega))

/--
Numbers without a fraction are as finite as larger ones.
-/
theorem isFinite_evaluate_of_le {c c' : ℕ} {e e' : ℤ} (le : c ≤ c')
    (small : c' ≤ 2 ^ 64) (nonneg : 0 ≤ e) (less : e ≤ e') (table : e' ≤ 308)
    (finite : (evaluate ⟨c', e'⟩).isFinite = true) : (evaluate ⟨c, e⟩).isFinite = true := by
  have first := isNearest_evaluate (d := ⟨c, e⟩) (le.trans small) nonneg (less.trans table)
  have second := isNearest_evaluate (d := ⟨c', e'⟩) small (nonneg.trans less) table
  have coefficients : rounded c ≤ rounded c' :=
    rounded_le_rounded (Nat.cast_nonneg c) (by exact_mod_cast le)
  have powers : rounded (10 ^ e.natAbs) ≤ rounded (10 ^ e'.natAbs) := by
    apply rounded_mono (by positivity)
    exact pow_le_pow_right₀ (by norm_num) (by omega)
  have more := one_le_rounded e.natAbs
  have nonneg := rounded_nonneg c
  apply first.isFinite_of_le second (mul_nonneg nonneg (by linarith)) _ finite
  exact mul_le_mul coefficients powers (by linarith) (by linarith)

/--
Nothing becomes infinite by a division.
-/
theorem isFinite_evaluate_of_nonpos (le : d.coefficient ≤ 2 ^ 64) (nonpos : d.exponent ≤ 0) :
    d.evaluate.isFinite = true := by
  have x := hasSize_ofNat le
  rcases nonpos.lt_or_eq with falling | none
  · unfold evaluate
    dsimp only
    rw [if_pos falling]
    exact isFinite_lower x _ (by omega)
  · rw [(isNearest_evaluate le none.ge (by omega)).isFinite_iff, none]
    have one := rounded_natCast (m := 1) (by decide)
    rw [Nat.cast_one] at one
    rw [Int.natAbs_zero, pow_zero, one, mul_one, x.unpack.rounded_eq]
    exact x.lt

/--
A whole number is worked out to the double that it is turned into.
-/
theorem evaluate_natCast {n : ℕ} (le : n ≤ 2 ^ 64) : evaluate ⟨n, 0⟩ = Float.ofNat n := by
  have product := isNearest_evaluate (d := ⟨n, 0⟩) le le_rfl (Int.zero_le_ofNat 308)
  have one := rounded_natCast (m := 1) (by decide)
  rw [Nat.cast_one] at one
  rw [Int.natAbs_zero, pow_zero, one, mul_one] at product
  exact product.eq (hasSize_ofNat le).isNearest

/--
The nearest double is found if the coefficient and the power of ten are doubles themselves.
-/
theorem evaluate_eq_toFloat (few : d.coefficient < 2 ^ 53) (lower : -22 ≤ d.exponent)
    (upper : d.exponent ≤ 22) : d.evaluate = d.toFloat := by
  have x : HasSize (Float.ofNat d.coefficient) .positive d.coefficient := by
    have size := hasSize_ofNat (n := d.coefficient) (by omega)
    rwa [rounded_natCast few] at size
  have power : HasSize (powerOfTen d.exponent.natAbs) .positive (10 ^ d.exponent.natAbs) := by
    have size := hasSize_powerOfTen (k := d.exponent.natAbs) (by omega)
    have kept := rounded_powerOfTen (k := d.exponent.natAbs) (by omega)
    rw [Nat.cast_pow, Nat.cast_ofNat] at kept
    rwa [kept] at size
  have nearest := d.isNearest_toFloat
  unfold Decimal.size at nearest
  unfold evaluate
  dsimp only
  split
  next falling =>
    rw [show (d.exponent.natAbs - 1) / 308 = 0 by omega, Nat.mul_zero, Nat.sub_zero,
      Decimal.lower]
    have quotient := x.div power (by positivity)
    rw [div_eq_mul_inv, ← zpow_natCast, ← zpow_neg, show -(d.exponent.natAbs : ℤ) = d.exponent
      by omega] at quotient
    exact quotient.eq nearest
  next rising =>
    rw [if_pos (by omega)]
    have product := x.mul power
    rw [← zpow_natCast, show (d.exponent.natAbs : ℤ) = d.exponent by omega] at product
    exact product.eq nearest

-- With more digits it can be the next one, or none.
example :
    evaluate ⟨31245270191439438, -15⟩ = toFloat ⟨31245270191439440, -15⟩ ∧
      evaluate ⟨31245270191439438, -15⟩ ≠ toFloat ⟨31245270191439438, -15⟩ ∧
      evaluate ⟨17976931348623158, 292⟩ = infinity := by
  decide +kernel

theorem size_lt_of_isFinite {d' : Decimal} (finite : d.toFloat.isFinite = true)
    (infinite : d'.toFloat.isFinite = false) : d.size < d'.size := by
  by_contra le
  have nonneg : 0 ≤ d'.size := mul_nonneg (Nat.cast_nonneg _) (by positivity)
  have := d'.isNearest_toFloat.isFinite_of_le d.isNearest_toFloat nonneg (not_lt.mp le) finite
  rw [infinite] at this
  cases this

/--
A decimal as the shortest digits of a double are: with seventeen digits at most, an exponent of some
hundreds, and no zero in front.
-/
structure IsShort (d : Decimal) : Prop where
  few : d.coefficient ≤ 10 ^ 17
  near : d.exponent.natAbs ≤ 2200
  begins : d = ⟨0, 0⟩ ∨ 0 < d.coefficient

theorem isShort_shortest (tie : Tie) (finite : x.isFinite = true) : (shortest tie x).IsShort := by
  have few := coefficient_shortest_le tie finite
  rcases shortest_eq_zero_or tie finite with zero | positive
  · rw [zero]
    exact ⟨by decide, by decide, .inl rfl⟩
  have lt := (hasSize_magnitude finite).lt
  rw [← rounded_size_shortest tie finite] at lt
  generalize shortest tie x = d at few positive lt
  have some : 0 < d.coefficient := by
    by_contra none
    unfold Decimal.size at positive
    rw [Nat.eq_zero_of_not_pos none, Nat.cast_zero, zero_mul, rounded_zero] at positive
    exact positive.false
  have size : 0 < d.size := mul_pos (by exact_mod_cast some) (by positivity)
  have upper : ¬2048 < d.exponent := fun large =>
    absurd lt (limit_le_rounded (limit_le_mul_ten_zpow some large)).not_gt
  have lower : ¬d.exponent < -(2048 + d.coefficient.log2) := fun small =>
    absurd (rounded_eq_zero size (mul_ten_zpow_lt small)) positive.ne'
  have places : d.coefficient.log2 ≤ 57 := log2_le (few.trans (by decide))
  exact ⟨few, by omega, .inr some⟩

/--
The largest double is the only one that could be written with digits of which too much comes out;
there are others with as few digits that are nearer to it.
-/
theorem shortest_ne (finite : x.isFinite = true) : shortest .even x ≠ ⟨17976931348623158, 292⟩ := by
  intro same
  have largest : magnitude x = .ofBits 0x7FEFFFFFFFFFFFFF := by
    rw [← toFloat_shortest .even finite, same]
    decide +kernel
  have others : ∀ negative : Bool, shortest .even (if negative then -.ofBits 0x7FEFFFFFFFFFFFFF else
      .ofBits 0x7FEFFFFFFFFFFFFF) = ⟨17976931348623157, 292⟩ := by
    decide +kernel
  have own := eq_magnitude finite
  rw [largest] at own
  have other := others (isNegative x)
  rw [own, same] at other
  cases other

/--
Close to the largest double, a product is finite if the digits are not above its own.
-/
theorem isFinite_evaluate_of_mul_le {c k : ℕ} (some : 0 < c)
    (le : c * 10 ^ k ≤ 17976931348623157) : (evaluate ⟨c, k + 292⟩).isFinite = true := by
  have small : k < 17 := by
    by_contra large
    have power : 10 ^ 17 ≤ 10 ^ k := Nat.pow_le_pow_right (by decide) (not_lt.mp large)
    have := Nat.le_mul_of_pos_left (10 ^ k) some
    omega
  have finite : ∀ k < 17, (evaluate ⟨17976931348623157 / 10 ^ k, (k : ℕ) + 292⟩).isFinite := by
    decide +kernel
  apply isFinite_evaluate_of_le ((Nat.le_div_iff_mul_le (by positivity)).mpr le) _ (by omega) le_rfl
    (by omega) (finite k small)
  exact (Nat.div_le_self _ _).trans (by decide)

/--
The shortest digits of a double are worked out to a finite one.
-/
theorem isFinite_evaluate_shortest (finite : x.isFinite = true) :
    (shortest .even x).evaluate.isFinite = true := by
  obtain ⟨few, _, begins⟩ := isShort_shortest .even finite
  have other := shortest_ne finite
  have stands : (shortest .even x).toFloat.isFinite = true := by
    rw [toFloat_shortest .even finite]
    exact (hasSize_magnitude finite).isFinite
  generalize shortest .even x = d at few begins other stands
  obtain ⟨c, e⟩ := d
  rcases le_or_gt e 0 with nonpos | pos
  · exact isFinite_evaluate_of_nonpos (few.trans (by decide)) nonpos
  rcases le_or_gt e 291 with less | more
  · have large : (evaluate ⟨10 ^ 17, 291⟩).isFinite = true := by decide +kernel
    exact isFinite_evaluate_of_le few (by decide) pos.le less (by decide) large
  obtain ⟨k, rfl⟩ : ∃ k : ℕ, e = k + 292 := ⟨(e - 292).toNat, by omega⟩
  have some : 0 < c := begins.resolve_left nofun
  have infinite : (toFloat ⟨17976931348623159, 292⟩).isFinite = false := by decide +kernel
  have bound := size_lt_of_isFinite stands infinite
  unfold Decimal.size at bound
  rw [zpow_add₀ (by norm_num), ← mul_assoc] at bound
  have bound : c * 10 ^ k < 17976931348623159 := by
    have := lt_of_mul_lt_mul_right bound (by positivity)
    rw [zpow_natCast] at this
    exact_mod_cast this
  apply isFinite_evaluate_of_mul_le some
  by_contra above
  cases k with
  | zero => exact other (by simp; omega)
  | succ k =>
    rw [Nat.pow_succ, ← Nat.mul_assoc] at bound above
    omega

end Decimal

end Stagecraft
