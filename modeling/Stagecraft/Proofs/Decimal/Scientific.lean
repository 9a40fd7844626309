import Stagecraft.Decimal.Basic
import Stagecraft.Proofs.Decimal.Nearest

/-!
This module contains the doubles that decimal numbers stand for. Each stands for the nearest double,
so two decimal numbers of the same size stand for the same one.
-/

namespace Stagecraft

namespace Double

open Float.Model (UnpackedFloat Format)
open Float.Model.UnpackedFloat

theorem canonical_limit : Canonical (2 ^ 52) 972 :=
  ⟨by decide, by decide, by decide, fun _ => le_rfl⟩

theorem limit_le_rounded {q : ℚ} (h : limit ≤ q) : limit ≤ rounded q := by
  have size : limit = (2 ^ 52 : ℕ) * 2 ^ (972 : ℤ) := by
    rw [limit, Nat.cast_pow, Nat.cast_two, ← zpow_natCast, ← zpow_add₀ two_ne_zero]
    rfl
  calc
    limit = rounded limit := by rw [size, canonical_limit.rounded_eq]
    _ ≤ rounded q := rounded_mono (zpow_pos two_pos _) h

/--
What is less than half of the smallest double is rounded to zero.
-/
theorem rounded_eq_zero {q : ℚ} (hq : 0 < q) (h : q < 2 ^ (-1075 : ℤ)) : rounded q = 0 := by
  have place : lastPlace q = -1074 := by
    have : Int.log 2 q < -1075 := by
      rw [← Int.lt_zpow_iff_log_lt (by decide) hq]
      exact_mod_cast h
    unfold lastPlace
    omega
  have small : q / 2 ^ (-1074 : ℤ) < 1 / 2 := by
    rw [div_lt_iff₀ (by positivity)]
    calc
      q < 2 ^ (-1075 : ℤ) := h
      _ = 1 / 2 * 2 ^ (-1074 : ℤ) := by
        rw [one_div, ← zpow_neg_one, ← zpow_add₀ two_ne_zero]
        rfl
  have floor : ⌊q / 2 ^ (-1074 : ℤ)⌋₊ = 0 := by
    rw [Nat.floor_eq_zero]
    linarith
  unfold rounded halfEven
  dsimp only
  rw [place, floor, Nat.cast_zero, zero_add, if_pos small, Nat.cast_zero, zero_mul]

/--
A number without places after the last one that a double of its size has.
-/
theorem rounded_eq_of_le {q : ℚ} {m : ℕ} {e : ℤ} (size : q = m * 2 ^ e) (le : lastPlace q ≤ e) :
    rounded q = q := by
  have whole : q / 2 ^ lastPlace q = (m * 2 ^ (e - lastPlace q).toNat : ℕ) := by
    rw [div_eq_iff (by positivity), decreased_size m le, size]
  unfold rounded
  rw [whole, halfEven_natCast, ← whole, div_mul_cancel₀ _ (by positivity)]

theorem rounded_natCast {m : ℕ} (h : m < 2 ^ 53) : rounded m = m := by
  rcases Nat.eq_zero_or_pos m with rfl | pos
  · exact_mod_cast rounded_zero
  · apply rounded_eq_of_le (m := m) (e := 0) (by simp)
    have : Int.log 2 (m : ℚ) < 53 := by
      rw [← Int.lt_zpow_iff_log_lt (by decide) (by exact_mod_cast pos)]
      exact_mod_cast h
    unfold lastPlace
    omega

variable {x y : Float} {s t : Sign} {p q r : ℚ}

theorem HasSize.div (h : HasSize x s p) (h' : HasSize y t q) (ne : q ≠ 0) :
    IsNearest (x / y) (s / t) (p / q) :=
  isNearest_ofModel (h.unpack.div h'.unpack ne)

theorem IsNearest.hasSize (h : IsNearest x s q) (kept : rounded q = q) (lt : q < limit) :
    HasSize x s q := by
  have size := h.finite (kept.symm ▸ lt)
  rwa [kept] at size

theorem hasSize_toFloat {n : UInt64} (h : n.toNat < 2 ^ 53) :
    HasSize n.toFloat .positive n.toNat := by
  have nearest : IsNearest n.toFloat .positive n.toNat := isNearest_ofModel (isSize_ofNat n.toNat)
  apply nearest.hasSize (rounded_natCast h)
  calc
    (n.toNat : ℚ) < 2 ^ (53 : ℤ) := by exact_mod_cast h
    _ ≤ limit := zpow_le_zpow_right₀ one_le_two (by decide)

theorem isNearest_infinity {s : Sign} (le : limit ≤ q) :
    IsNearest (.ofModel (.pack (.infinity s))) s q := by
  constructor
  · intro lt
    exact absurd lt (not_lt.mpr (limit_le_rounded le))
  · intro _
    exact unpack_packedInfinity s

theorem limit_le_mul_ten_zpow {m : ℕ} {e : ℤ} (pos : 0 < m) (large : 2048 < e) :
    limit ≤ m * 10 ^ e := by
  calc
    limit ≤ 10 ^ (1024 : ℤ) := zpow_le_zpow_left₀ (by decide) (by norm_num) (by norm_num)
    _ ≤ 10 ^ e := zpow_le_zpow_right₀ (by norm_num) (by omega)
    _ ≤ m * 10 ^ e := le_mul_of_one_le_left (by positivity) (by exact_mod_cast pos)

theorem mul_ten_zpow_lt {m : ℕ} {e : ℤ} (small : e < -(2048 + m.log2)) :
    (m : ℚ) * 10 ^ e < 2 ^ (-1075 : ℤ) := by
  have mantissa : (m : ℚ) < 2 ^ ((m.log2 : ℤ) + 1) := by exact_mod_cast Nat.lt_log2_self
  have power : (10 : ℚ) ^ e ≤ 2 ^ e := by
    obtain ⟨k, rfl⟩ : ∃ k : ℕ, e = -k := ⟨e.natAbs, by omega⟩
    rw [zpow_neg, zpow_neg, zpow_natCast, zpow_natCast]
    gcongr
    norm_num
  calc
    (m : ℚ) * 10 ^ e < 2 ^ ((m.log2 : ℤ) + 1) * 10 ^ e := by gcongr
    _ ≤ 2 ^ ((m.log2 : ℤ) + 1) * 2 ^ e := by gcongr
    _ = 2 ^ ((m.log2 : ℤ) + 1 + e) := (zpow_add₀ two_ne_zero _ _).symm
    _ ≤ 2 ^ (-1075 : ℤ) := zpow_le_zpow_right₀ one_le_two (by omega)

theorem isNearest_ofScientific (m : ℕ) (e : ℤ) :
    IsNearest (.ofModel (.ofScientific m e)) .positive (m * 10 ^ e) := by
  have bits : (2 : ℤ) ^ Format.binary64.exponentBits = 2048 := rfl
  unfold Float.Model.ofScientific UnpackedFloat.ofScientific
  rw [bits]
  split
  next none =>
    apply isNearest_ofModel
    rw [none, Nat.cast_zero, zero_mul, rounded_zero]
    exact .zero rfl
  next some =>
    have pos := Nat.pos_of_ne_zero some
    split
    next large => exact isNearest_infinity (limit_le_mul_ten_zpow pos large)
    next =>
      apply isNearest_ofModel
      split
      next small =>
        rw [rounded_eq_zero (mul_pos (by exact_mod_cast pos) (by positivity))
          (mul_ten_zpow_lt small)]
        exact .zero rfl
      next =>
        split
        next whole =>
          obtain ⟨k, rfl⟩ := Int.eq_ofNat_of_zero_le whole
          have size : (m : ℚ) * (10 : ℚ) ^ (k : ℤ) =
              (m <<< 53 : ℕ) * 2 ^ (-53 : ℤ) * ((10 ^ k : ℕ) * 2 ^ (0 : ℤ)) := by
            rw [Nat.shiftLeft_eq, zpow_natCast]
            push_cast
            ring
          rw [size]
          apply isSize_mul .positive .positive
          left
          calc
            2 ^ 52 ≤ 1 * 2 ^ 53 * 1 := by decide
            _ ≤ m <<< 53 * 10 ^ k := by
              rw [Nat.shiftLeft_eq]
              gcongr
              · exact pos
              · exact Nat.one_le_pow _ _ (by decide)
        next part =>
          obtain ⟨k, rfl⟩ : ∃ k : ℕ, e = -k := ⟨e.natAbs, by omega⟩
          have size : (m : ℚ) * 10 ^ (-k : ℤ) = m * 2 ^ (0 : ℤ) / ((10 ^ k : ℕ) * 2 ^ (0 : ℤ)) := by
            rw [zpow_neg, zpow_natCast, div_eq_mul_inv]
            simp
          have amount : (- -(k : ℤ)).toNat = k := by omega
          rw [size]
          simp only [amount]
          apply isSize_div .positive .positive

/--
The entries of the table of powers are what the powers are rounded to.
-/
theorem powerOfTen_eq : ∀ k : Fin 23, Float.exactlyRepresentablePowersOfTen[k] =
    .ofModel (.pack (.ofNat .binary64 (10 ^ k.val))) := by
  decide

theorem rounded_powerOfTen {k : ℕ} (h : k < 23) : rounded (10 ^ k : ℕ) = (10 ^ k : ℕ) := by
  have size : ((10 ^ k : ℕ) : ℚ) = (5 ^ k : ℕ) * 2 ^ (k : ℤ) := by
    rw [zpow_natCast]
    exact_mod_cast mul_pow 5 2 k
  apply rounded_eq_of_le size
  have : Int.log 2 ((10 ^ k : ℕ) : ℚ) < 53 + k := by
    rw [← Int.lt_zpow_iff_log_lt (by decide) (by positivity), size, Nat.cast_two,
      zpow_add₀ two_ne_zero]
    gcongr
    calc
      ((5 ^ k : ℕ) : ℚ) ≤ (5 ^ 22 : ℕ) := by
        gcongr
        · decide
        · omega
      _ < 2 ^ (53 : ℤ) := by norm_num
  unfold lastPlace
  omega

theorem hasSize_powerOfTen {k : ℕ} (h : k < Float.exactlyRepresentablePowersOfTen.size) :
    HasSize Float.exactlyRepresentablePowersOfTen[k] .positive (10 ^ k : ℕ) := by
  have nearest : IsNearest Float.exactlyRepresentablePowersOfTen[k] .positive (10 ^ k : ℕ) := by
    have entry : Float.exactlyRepresentablePowersOfTen[k] = _ := powerOfTen_eq ⟨k, h⟩
    rw [entry]
    exact isNearest_ofModel (isSize_ofNat _)
  have lt : k < 23 := h
  apply nearest.hasSize (rounded_powerOfTen lt)
  calc
    ((10 ^ k : ℕ) : ℚ) ≤ (10 ^ 22 : ℕ) := by
      gcongr
      · decide
      · omega
    _ ≤ 2 ^ (100 : ℤ) := by norm_num
    _ < limit := zpow_lt_zpow_right₀ one_lt_two (by decide)

theorem isNearest_scientific (m : ℕ) (falling : Bool) (k : ℕ) :
    IsNearest (Float.ofScientific m falling k) .positive
      (m * 10 ^ (if falling then -(k : ℤ) else k)) := by
  unfold Float.ofScientific
  split
  next small =>
    -- The mantissa and the power are doubles, so it is enough to round once.
    have power := hasSize_powerOfTen (Nat.lt_succ_of_le small.2)
    have same : m.toUInt64.toNat = m := by
      change m % 2 ^ 64 = m
      omega
    have mantissa := hasSize_toFloat (n := m.toUInt64) (by rw [same]; exact small.1)
    rw [same] at mantissa
    cases falling with
    | true =>
      have quotient := mantissa.div power (by positivity)
      rw [Nat.cast_pow, div_eq_mul_inv, ← zpow_natCast, ← zpow_neg] at quotient
      exact quotient
    | false =>
      have product := mantissa.mul power
      rw [Nat.cast_pow, ← zpow_natCast] at product
      exact product
  next =>
    cases falling with
    | true => exact isNearest_ofScientific m (-k)
    | false => exact isNearest_ofScientific m k

end Double

namespace Decimal

open Double

/--
The number that a decimal is.
-/
def size (d : Decimal) : ℚ := d.coefficient * 10 ^ d.exponent

theorem signed_natAbs (e : ℤ) :
    (if decide (e < 0) then -(e.natAbs : ℤ) else e.natAbs) = e := by
  split
  next falling =>
    rw [decide_eq_true_iff] at falling
    omega
  next rising =>
    rw [decide_eq_true_iff] at rising
    omega

theorem isNearest_toFloat (d : Decimal) : IsNearest d.toFloat .positive d.size := by
  have nearest := isNearest_scientific d.coefficient (decide (d.exponent < 0)) d.exponent.natAbs
  rw [signed_natAbs] at nearest
  exact nearest

theorem toFloat_eq {d d' : Decimal} (h : d.size = d'.size) : d.toFloat = d'.toFloat :=
  d.isNearest_toFloat.eq (h ▸ d'.isNearest_toFloat)

end Decimal

end Stagecraft
