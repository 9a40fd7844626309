import Mathlib
import Stagecraft.Document.Number

/-!
This module contains what is needed of the arithmetic of doubles. The product of positive doubles is
not negative (`zero_le_mul`), and the whole numbers of 64 bits are no infinite doubles
(`isFinite_floatOfInt`). Both are shown on the unpacked form, of which packing keeps the sign, and
the exponent as long as it fits. The lemmas on packing come with the whole of Mathlib only.
-/

namespace Stagecraft

namespace Double

open Float.Model (UnpackedFloat Format)
open Float.Model.UnpackedFloat

def sign? : UnpackedFloat → Option Sign
  | .infinity s | .zero s | .finite s _ _ _ => some s
  | .notANumber => none

inductive ExponentLE (k : Int) : UnpackedFloat → Prop where
  | zero (s : Sign) : ExponentLE k (.zero s)
  | finite {s : Sign} {m : Nat} {e : Int} {pos : 0 < m} (h : e ≤ k) :
    ExponentLE k (.finite s m e pos)

theorem ExponentLE.mono {u : UnpackedFloat} {k other : Int} (h : ExponentLE k u)
    (le : k ≤ other) : ExponentLE other u := by
  cases h with
  | zero s => exact .zero s
  | finite h => exact .finite (Int.le_trans h le)

theorem ExponentLE.neg {u : UnpackedFloat} {k : Int} (h : ExponentLE k u) :
    ExponentLE k u.neg := by
  cases h with
  | zero s => apply ExponentLE.zero
  | finite h => exact .finite h

theorem ExponentLE.isFinite {u : UnpackedFloat} {k : Int} (h : ExponentLE k u) :
    u.isFinite = true := by
  cases h with
  | _ => rfl

theorem sign?_unpack_packComponents (s : Sign) {e : BitVec 11} {m : BitVec 52}
    (h : e = -1#11 → m = 0#52) :
    sign? (unpack .binary64 (packComponents .binary64 s e m)) = some s := by
  unfold unpack
  simp only [unpackMantissa_packComponents, unpackExponent_packComponents,
    unpackSign_packComponents, Sign.ofBitVec_toBitVec]
  split
  next ones =>
    rw [if_pos (h ones)]
    rfl
  · split
    · split
      · rfl
      · rfl
    · rfl

theorem ofNat_ne_neg_one {n : Nat} (h : n + 1 < 2 ^ 11) : BitVec.ofNat 11 n ≠ -1#11 := by
  intro same
  have ones := congrArg BitVec.toNat same
  rw [BitVec.toNat_ofNat, Nat.mod_eq_of_lt (by omega)] at ones
  change n = 2 ^ 11 - 1 at ones
  omega

theorem sign?_unpack_pack (u : UnpackedFloat) :
    sign? (unpack .binary64 (pack .binary64 u)) = sign? u := by
  unfold pack
  split
  · rfl
  · apply sign?_unpack_packComponents
    simp
  · apply sign?_unpack_packComponents
    simp
  · dsimp only
    split
    · apply sign?_unpack_packComponents
      simp
    next fits =>
      split
      · apply sign?_unpack_packComponents
        intro ones
        exact absurd ones (ofNat_ne_neg_one (by omega))
      · apply sign?_unpack_packComponents
        intro ones
        exact absurd ones (by decide)

theorem exponentLE_unpack_packComponents {s : Sign} {e : BitVec 11} {m : BitVec 52} {k : Int}
    (h : e ≠ -1#11) (low : -1074 ≤ k) (high : e.toNat - 1075 ≤ k) :
    ExponentLE k (unpack .binary64 (packComponents .binary64 s e m)) := by
  have bias : (Format.binary64.exponentBias : Int) = 1023 := rfl
  unfold unpack
  simp only [unpackMantissa_packComponents, unpackExponent_packComponents]
  rw [if_neg h, bias]
  split
  next zeros =>
    split
    · apply ExponentLE.zero
    · subst zeros
      exact .finite low
  · apply ExponentLE.finite
    omega

theorem exponentLE_unpack_pack {u : UnpackedFloat} {k : Int} (h : ExponentLE k u)
    (low : -1074 ≤ k) (high : k ≤ 971) :
    ExponentLE k (unpack .binary64 (pack .binary64 u)) := by
  have bias : (Format.binary64.exponentBias : Int) = 1023 := rfl
  unfold pack
  split
  · cases h
  · cases h
  · exact exponentLE_unpack_packComponents (by decide) low (by simp; omega)
  next s m e pos =>
    have e_le : e ≤ k := by
      cases h
      assumption
    dsimp only
    rw [bias, if_neg (by omega)]
    split
    · apply exponentLE_unpack_packComponents
      · apply ofNat_ne_neg_one
        omega
      · exact low
      · rw [BitVec.toNat_ofNat]
        have := Nat.mod_le (e + 1023 + (52 : Nat)).toNat (2 ^ 11)
        omega
    · exact exponentLE_unpack_packComponents (by decide) low (by simp; omega)

theorem mantissa_lt_of_unpack {b : BitVec Format.binary64.numBits} {s : Sign} {m : Nat} {e : Int}
    {pos : 0 < m} (h : unpack .binary64 b = .finite s m e pos) : m < 2 ^ 53 := by
  unfold unpack at h
  dsimp only at h
  split at h
  · split at h
    · cases h
    · cases h
  · split at h
    · split at h
      · cases h
      · cases h
        have := (unpackMantissa b).isLt
        omega
    · cases h
      exact (1#1 ++ (unpackMantissa b)).isLt

theorem roundedMantissa_le (em : ExtendedMantissa) : em.roundedMantissa ≤ em.mantissa + 1 := by
  unfold ExtendedMantissa.roundedMantissa Accuracy.roundToNearestEven
  split
  · omega
  · omega
  · have := Nat.mod_lt em.mantissa (show 0 < 2 by decide)
    omega
  · omega

theorem mantissa_shiftRight_le (em : ExtendedMantissa) (n : Nat) :
    (em >>> n).mantissa ≤ em.mantissa := by
  change (n.repeat ExtendedMantissa.shiftRightOne em).mantissa ≤ em.mantissa
  induction n with
  | zero => exact Nat.le_refl _
  | succ n ih =>
    change (n.repeat ExtendedMantissa.shiftRightOne em).mantissa / 2 ≤ em.mantissa
    omega

theorem log2_le {m w : Nat} (h : m ≤ 2 ^ w) : m.log2 ≤ w := by
  rw [Nat.log2_eq_log_two]
  calc
    Nat.log 2 m ≤ Nat.log 2 (2 ^ w) := Nat.log_mono_right h
    _ = w := Nat.log_pow Nat.one_lt_two w

theorem exponentLE_roundWithAccuracy {s : Sign} {m w : Nat} {e k : Int} (hm : m < 2 ^ w)
    (he : e ≤ k) (low : -1074 ≤ k) :
    ExponentLE (k + 2 * w + 2) (roundWithAccuracy .binary64 s m e .exact) := by
  have bits : (Format.binary64.mantissaBits : Int) = 53 := rfl
  have least : Format.binary64.minExponent = -1074 := rfl
  unfold roundWithAccuracy shiftToTargetExponent shiftToExponent
  simp only [Float.Model.totalExponent, Format.targetExponent, bits, least]
  split
  · apply ExponentLE.zero
  · apply ExponentLE.finite
    -- Shifting makes the mantissa smaller, and rounding adds at most one to it.
    generalize shifted : (ExtendedMantissa.ofMantissaAndAccuracy m .exact >>> (_ : Nat)) = em
    have rounded : em.roundedMantissa ≤ 2 ^ w := by
      have := roundedMantissa_le em
      have : em.mantissa ≤ m := by
        rw [← shifted]
        apply mantissa_shiftRight_le
      omega
    have := log2_le rounded
    have := log2_le (Nat.le_of_lt hm)
    omega

theorem sign?_roundWithAccuracy (s : Sign) (m : Nat) (e : Int) (accuracy : Accuracy) :
    sign? (roundWithAccuracy .binary64 s m e accuracy) = some s := by
  unfold roundWithAccuracy
  dsimp only
  split
  · rfl
  · rfl

theorem exponentLE_round {s : Sign} {m w : Nat} (h : m < 2 ^ w) :
    ExponentLE (2 * w + 108) (UnpackedFloat.round .binary64 s m 0) := by
  have bits : (Format.binary64.mantissaBits : Int) = 53 := rfl
  have least : Format.binary64.minExponent = -1074 := rfl
  unfold UnpackedFloat.round decreaseExponent
  simp only [Float.Model.totalExponent, Format.targetExponent, bits, least]
  generalize shift : (0 - max ((m.log2 : Int) + 1 + 0 - 53) (-1074)).toNat = amount
  have hm : m <<< amount < 2 ^ (w + 53) := by
    have : 2 ^ amount ≤ 2 ^ 53 := Nat.pow_le_pow_right (by decide) (by omega)
    rw [Nat.shiftLeft_eq, Nat.pow_add]
    exact Nat.mul_lt_mul_of_lt_of_le h this (by decide)
  have rounded := exponentLE_roundWithAccuracy (s := s) (e := 0 - amount) (k := 0) hm
    (by omega) (by decide)
  have : (0 : Int) + 2 * (w + 53 : Nat) + 2 = 2 * w + 108 := by omega
  rwa [this] at rounded

theorem exponentLE_ofNat {n w : Nat} (h : n < 2 ^ w) :
    ExponentLE (2 * w + 108) (ofNat .binary64 n) := by
  unfold ofNat ofInt UnpackedFloat.normalize
  split
  next less =>
    rw [Int.compare_eq_lt] at less
    omega
  · apply ExponentLE.zero
  · exact exponentLE_round h

theorem exponentLE_mul {u : UnpackedFloat} {s : Sign} {n w : Nat} {f k : Int} {pos : 0 < n}
    (h : ExponentLE k u) (shrinks : f ≤ 0)
    (small : ∀ t m e pos', u = .finite t m e pos' → m * n < 2 ^ w) (low : -1074 ≤ k) :
    ExponentLE (k + 2 * w + 2) (mul .binary64 u (.finite s n f pos)) := by
  cases h with
  | zero t => apply ExponentLE.zero
  | finite h =>
    apply exponentLE_roundWithAccuracy
    · exact small _ _ _ _ rfl
    · omega
    · exact low

theorem unpack_mul (x y : Float) :
    (x * y).toModel.unpack =
      unpack .binary64 (pack .binary64 (mul .binary64 x.toModel.unpack y.toModel.unpack)) := rfl

theorem ofNat_eq (n : Nat) :
    Float.ofNat n =
      if n < 2 ^ 53 then n.toUInt64.toFloat * Float.ofBits 0x3FF0000000000000
      else .ofModel (.ofScientific n 0) := by
  change Float.ofScientific n false 0 = _
  unfold Float.ofScientific
  by_cases small : n < 2 ^ 53
  · rw [dif_pos ⟨small, by decide⟩, if_pos small]
    rfl
  · rw [dif_neg fun both => small both.1, if_neg small]
    rfl

theorem exponentLE_ofScientific {n w : Nat} (h : n < 2 ^ w) :
    ExponentLE (0 + 2 * (w + 53 : Nat) + 2) (ofScientific .binary64 n 0) := by
  have nonneg : (0 : Int) ≤ 2 ^ Format.binary64.exponentBits := by decide
  have shifted : n <<< 53 * 10 ^ (0 : Int).toNat < 2 ^ (w + 53) := by
    rw [Nat.shiftLeft_eq, Nat.pow_add]
    simpa using h
  unfold ofScientific
  split
  · apply ExponentLE.zero
  · rw [if_neg (by omega), if_neg (by omega), if_pos (Int.le_refl 0)]
    apply exponentLE_mul (.finite (by decide)) (Int.le_refl 0) _ (by decide)
    intro s m e pos same
    cases same
    exact shifted

theorem exponentLE_unpack_ofNat {n : Nat} (h : n ≤ 2 ^ 64) :
    ExponentLE 971 (Float.ofNat n).toModel.unpack := by
  rw [ofNat_eq]
  -- A literal below `2 ^ 53` is a conversion times one; any other one is rounded from its digits.
  split
  · have whole : ExponentLE 236 n.toUInt64.toFloat.toModel.unpack := by
      apply exponentLE_unpack_pack
      · exact exponentLE_ofNat n.toUInt64.toNat_lt
      · decide
      · decide
    have one : (Float.ofBits 0x3FF0000000000000).toModel.unpack =
        .finite .positive (2 ^ 52) (-52) (by decide) := rfl
    rw [unpack_mul, one]
    have product : ExponentLE 971 (mul .binary64 n.toUInt64.toFloat.toModel.unpack
        (.finite .positive (2 ^ 52) (-52) (by decide))) := by
      apply ExponentLE.mono (exponentLE_mul (w := 105) whole (by decide) ?_ (by decide))
        (by decide)
      intro s m e pos shape
      have := mantissa_lt_of_unpack shape
      omega
    exact exponentLE_unpack_pack product (by decide) (by decide)
  · apply exponentLE_unpack_pack _ (by decide) (by decide)
    exact (exponentLE_ofScientific (w := 65) (by omega)).mono (by decide)

theorem isFinite_floatOfInt {n : Int} (h : IsExact n) : (Number.floatOfInt n).isFinite = true := by
  have bounded : ExponentLE 971 (Float.ofNat n.natAbs).toModel.unpack := by
    apply exponentLE_unpack_ofNat
    unfold IsExact at h
    omega
  unfold Number.floatOfInt
  dsimp only
  split
  · exact (exponentLE_unpack_pack bounded.neg (by decide) (by decide)).isFinite
  · exact bounded.isFinite

theorem unpack_zero : (0 : Float).toModel.unpack = .zero .positive := rfl

theorem le_iff {x y : Float} : x ≤ y ↔ x.toModel.unpack.le y.toModel.unpack = true := by
  apply decide_eq_true_iff

theorem lt_iff {x y : Float} : x < y ↔ x.toModel.unpack.lt y.toModel.unpack = true := by
  apply decide_eq_true_iff

theorem zero_le_of_sign? {x : Float} (h : sign? x.toModel.unpack = some .positive) : 0 ≤ x := by
  rw [le_iff, unpack_zero]
  generalize x.toModel.unpack = u at h
  cases u with
  | infinity | zero | finite =>
    cases h
    rfl
  | notANumber => cases h

theorem lt_zero_of_not_zero_le {x : Float} (finite : x.isFinite = true) (h : ¬ 0 ≤ x) :
    x < 0 := by
  change x.toModel.unpack.isFinite = true at finite
  rw [le_iff, unpack_zero] at h
  rw [lt_iff, unpack_zero]
  generalize x.toModel.unpack = u at finite h
  cases u with
  | infinity | notANumber => cases finite
  | zero => exact absurd rfl h
  | finite s m e pos =>
    cases s with
    | positive => exact absurd rfl h
    | negative => rfl

inductive Positive : UnpackedFloat → Prop where
  | infinity : Positive (.infinity .positive)
  | finite {m : Nat} {e : Int} {pos : 0 < m} : Positive (.finite .positive m e pos)

theorem positive_of_zero_lt {x : Float} (h : 0 < x) : Positive x.toModel.unpack := by
  rw [lt_iff, unpack_zero] at h
  generalize x.toModel.unpack = u at h ⊢
  cases u with
  | infinity s =>
    cases s with
    | positive => exact .infinity
    | negative => cases h
  | finite s m e pos =>
    cases s with
    | positive => exact .finite
    | negative => cases h
  | zero | notANumber => cases h

theorem Positive.sign?_mul {u v : UnpackedFloat} (hu : Positive u) (hv : Positive v) :
    sign? (mul .binary64 u v) = some .positive := by
  cases hu with
  | infinity =>
    cases hv with
    | _ => rfl
  | finite =>
    cases hv with
    | infinity => rfl
    | finite => apply sign?_roundWithAccuracy

theorem zero_le_mul {x y : Float} (hx : 0 < x) (hy : 0 < y) : 0 ≤ x * y := by
  apply zero_le_of_sign?
  rw [unpack_mul, sign?_unpack_pack]
  exact (positive_of_zero_lt hx).sign?_mul (positive_of_zero_lt hy)

end Double

theorem Number.isFinite_toFloat (n : Number) : n.toFloat.isFinite = true := by
  cases n with
  | integer value exact => exact Double.isFinite_floatOfInt exact
  | real value finite => exact finite

end Stagecraft
