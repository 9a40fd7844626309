import Stagecraft.Proofs.Decimal.Scientific

/-!
This module contains what the shortest digits of a double stand for: the double that they were made
from, without its sign.
-/

namespace Stagecraft

def signOf (x : Float) : Float.Model.UnpackedFloat.Sign :=
  if isNegative x then .negative else .positive

namespace Double

open Float.Model (UnpackedFloat Format)
open Float.Model.UnpackedFloat

theorem toNat_packComponents (s : Sign) (e : BitVec 11) (m : BitVec 52) :
    (packComponents .binary64 s e m).toNat =
      2 ^ 63 * s.toBitVec.toNat + 2 ^ 52 * e.toNat + m.toNat := by
  change (s.toBitVec ++ e ++ m).toNat = _
  have exponent := e.isLt
  have mantissa := m.isLt
  rw [BitVec.toNat_append, BitVec.toNat_append, ← Nat.shiftLeft_add_eq_or_of_lt mantissa,
    ← Nat.shiftLeft_add_eq_or_of_lt exponent]
  simp only [Nat.shiftLeft_eq]
  ring

variable {x y : Float} {s t : Sign} {p q r : ℚ}

/--
The sign, the exponent field and the fraction of a double.
-/
structure HasFields (x : Float) (s : Sign) (e m : ℕ) : Prop where
  sign : signOf x = s
  exponent : biasedExponent x = e
  fraction : x.toBits.toNat % fractionCount = m

theorem hasFields {e : BitVec 11} {m : BitVec 52}
    (h : x.toBits.toBitVec = packComponents .binary64 s e m) :
    HasFields x s e.toNat m.toNat := by
  have exponent := e.isLt
  have mantissa := m.isLt
  have bits : x.toBits.toNat = _ := (congrArg BitVec.toNat h).trans (toNat_packComponents s e m)
  refine ⟨?_, ?_, ?_⟩
  · unfold signOf isNegative fractionCount exponentCount
    rw [bits]
    cases s with
    | positive =>
      have : Sign.positive.toBitVec.toNat = 0 := rfl
      simp only [decide_eq_true_eq]
      rw [if_neg (by omega)]
    | negative =>
      have : Sign.negative.toBitVec.toNat = 1 := rfl
      simp only [decide_eq_true_eq]
      rw [if_pos (by omega)]
  · unfold biasedExponent fractionCount exponentCount
    rw [bits]
    omega
  · unfold fractionCount
    rw [bits]
    omega

theorem HasFields.significand_eq {e m : ℕ} (h : HasFields x s e m) :
    significand x = if e = 0 then m else 2 ^ 52 + m := by
  unfold significand
  rw [h.exponent, h.fraction, Nat.add_comm]
  rfl

theorem HasFields.power_eq {e m : ℕ} (h : HasFields x s e m) :
    power x = if e = 0 then -1074 else (e : ℤ) - 1075 := by
  unfold power
  rw [h.exponent]

theorem Shape.isSize {b : BitVec Format.binary64.numBits} {u : UnpackedFloat} (h : Shape b u)
    (bits : x.toBits.toBitVec = b) (finite : u.isFinite = true) :
    IsSize (signOf x) (significand x * 2 ^ power x) u := by
  cases h with
  | infinity | notANumber => cases finite
  | zero s =>
    have fields := hasFields (e := 0#11) (m := 0#52) bits
    rw [fields.sign, fields.significand_eq, fields.power_eq]
    exact .zero (by simp)
  | subnormal s m pos =>
    have fields := hasFields bits
    rw [fields.sign, fields.significand_eq, fields.power_eq]
    exact .finite (canonical_subnormal pos) rfl
  | normal s e m least le =>
    have fields := hasFields bits
    rw [fields.sign, fields.significand_eq, fields.power_eq, if_neg least.ne', if_neg least.ne']
    exact .finite (canonical_normal least) rfl

theorem hasSize_significand (finite : x.isFinite = true) :
    HasSize x (signOf x) (significand x * 2 ^ power x) := by
  obtain ⟨s, r, h⟩ := exists_hasSize finite
  have size : IsSize (signOf x) (significand x * 2 ^ power x) x.toModel.unpack :=
    (shape_unpack x.toModel.valid).isSize rfl finite
  rw [h.unpack.size_eq size] at h
  exact ⟨size, h.lt⟩

theorem HasSize.neg (h : HasSize x s r) : HasSize (-x) (-s) r := by
  have kept : (-x).toModel.unpack = x.toModel.unpack.neg := h.unpack.neg.unpack_pack h.lt
  exact ⟨kept ▸ h.unpack.neg, h.lt⟩

theorem hasSize_magnitude (finite : x.isFinite = true) :
    HasSize (magnitude x) .positive (significand x * 2 ^ power x) := by
  have h := hasSize_significand finite
  unfold signOf at h
  unfold magnitude
  cases negative : isNegative x with
  | true =>
    rw [negative] at h
    exact h.neg
  | false =>
    rw [negative] at h
    exact h

/--
A finite double is its size with its sign.
-/
theorem eq_magnitude (finite : x.isFinite = true) :
    (if isNegative x then -magnitude x else magnitude x) = x := by
  have h := hasSize_significand finite
  have positive := hasSize_magnitude finite
  unfold signOf at h
  cases negative : isNegative x with
  | true =>
    rw [negative] at h
    exact positive.neg.eq h
  | false =>
    rw [negative] at h
    exact positive.eq h

theorem IsNearest.eq_of_beq (h : IsNearest x .positive q) (h' : HasSize y .positive r)
    (same : (x == y) = true) : x = y := by
  change x.toModel.unpack.beq y.toModel.unpack = true at same
  rcases lt_or_ge (rounded q) limit with lt | le
  · exact eq_of_unpack_eq ((h.finite lt).unpack.eq_of_beq h'.unpack same)
  · rw [h.infinite le, h'.unpack.infinity_beq] at same
    cases same

end Double

theorem natDiv_add_natMod_div (num : ℕ) {den : ℕ} (pos : 0 < den) :
    ((num / den : ℕ) : ℚ) + (num % den : ℕ) / den = num / den := by
  have whole : (den : ℚ) * (num / den : ℕ) + (num % den : ℕ) = num := by
    exact_mod_cast Nat.div_add_mod num den
  have : (den : ℚ) ≠ 0 := by exact_mod_cast pos.ne'
  rw [← whole]
  field_simp

theorem scale_div_scale (base : ℕ) (e : ℤ) :
    (scale base e : ℚ) / scale base (-e) = base ^ e := by
  unfold scale
  obtain ⟨k, whole | part⟩ := e.eq_nat_or_neg
  · rw [whole, Int.toNat_neg_natCast, Int.toNat_natCast, zpow_natCast]
    simp
  · rw [part, neg_neg, Int.toNat_neg_natCast, Int.toNat_natCast, zpow_neg, zpow_natCast]
    simp

theorem numerator_div_denominator (x : Float) :
    (numerator x : ℚ) / denominator x = significand x * 2 ^ power x := by
  unfold numerator denominator
  rw [Nat.cast_mul, mul_div_assoc, scale_div_scale, Nat.cast_two]

namespace Decimal

open Double

variable {x : Float}

theorem size_exact (x : Float) : (exact x).size = significand x * 2 ^ power x := by
  unfold exact size scale
  dsimp only
  rcases le_total 0 (power x) with whole | part
  · obtain ⟨k, power_eq⟩ := Int.eq_ofNat_of_zero_le whole
    rw [power_eq, min_eq_right (by omega), Int.toNat_neg_natCast, Int.toNat_natCast, zpow_zero,
      zpow_natCast]
    simp
  · obtain ⟨k, power_eq⟩ : ∃ k : ℕ, power x = -k := ⟨(power x).natAbs, by omega⟩
    have two : (5 : ℚ) ^ k * (10 : ℚ) ^ (-k : ℤ) = 2 ^ (-k : ℤ) := by
      rw [show (10 : ℚ) = 5 * 2 by norm_num, mul_zpow, ← mul_assoc, ← zpow_natCast,
        ← zpow_add₀ (by norm_num), add_neg_cancel, zpow_zero, one_mul]
    rw [power_eq, min_eq_left (by omega), Int.toNat_neg_natCast, neg_neg, Int.toNat_natCast]
    push_cast
    rw [mul_assoc, ← two]
    simp

theorem size_short (digits : ℕ) (d : Decimal) : (short digits d).size = d.size := by
  unfold short
  split
  next full =>
    unfold size
    rw [full, scale, zpow_add₀ (by norm_num), zpow_natCast]
    simp [mul_comm]
  · rfl

/--
The shortest digits of a double stand for its size.
-/
theorem toFloat_shortest (tie : Tie) (finite : x.isFinite = true) :
    (shortest tie x).toFloat = magnitude x := by
  have size := hasSize_magnitude finite
  have whole : (exact x).toFloat = magnitude x := by
    have nearest := (exact x).isNearest_toFloat
    rw [size_exact] at nearest
    exact nearest.eq size.isNearest
  unfold shortest
  dsimp only
  split
  next none =>
    rw [← whole]
    apply toFloat_eq
    rw [size_exact, none]
    simp [Decimal.size]
  next =>
    generalize found : List.findSome? _ _ = d?
    cases d? with
    | none => exact whole
    | some d =>
      obtain ⟨n, _, read⟩ := List.exists_of_findSome?_eq_some found
      obtain ⟨d', first, rfl⟩ := Option.map_eq_some_iff.mp read
      have same := List.find?_some first
      rw [Option.getD_some, toFloat_eq (size_short _ d')]
      exact d'.isNearest_toFloat.eq_of_beq size same

theorem rounded_size_shortest (tie : Tie) (finite : x.isFinite = true) :
    rounded (shortest tie x).size = significand x * 2 ^ power x := by
  have nearest := (shortest tie x).isNearest_toFloat
  rw [toFloat_shortest tie finite] at nearest
  exact nearest.rounded_eq (hasSize_magnitude finite)

/--
The shortest digits stand for something, unless there are none but zero.
-/
theorem shortest_eq_zero_or (tie : Tie) (finite : x.isFinite = true) :
    shortest tie x = ⟨0, 0⟩ ∨ 0 < rounded (shortest tie x).size := by
  by_cases none : significand x = 0
  · left
    unfold shortest
    rw [if_pos none]
  · right
    rw [rounded_size_shortest tie finite]
    exact size_pos (Nat.pos_of_ne_zero none) _

end Decimal

end Stagecraft
