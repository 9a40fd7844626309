import Stagecraft.Proofs.Decimal.Double
import Stagecraft.Proofs.Decimal.Rounding

/-!
This module connects the rounding of numbers with the mantissas and bits that doubles are made of.
Shifting a mantissa keeps what has to be known of the places that are lost, so the unpacked double
that is made at the end has the size `rounded q`. Packing keeps it, unless it is too large.
-/

namespace Stagecraft

namespace Double

open Float.Model (UnpackedFloat Format totalExponent)
open Float.Model.UnpackedFloat

/--
What a mantissa and its two additional bits tell of a number: its whole part, whether there is at
least a half besides, and whether there is something besides that is not exactly a half.
-/
structure Tells (em : ExtendedMantissa) (x : ℚ) : Prop where
  le : em.mantissa ≤ x
  lt : x < em.mantissa + 1
  half : em.roundBit = true ↔ em.mantissa + 1 / 2 ≤ x
  more : em.stickyBit = true ↔ x ≠ em.mantissa ∧ x ≠ em.mantissa + 1 / 2

theorem tells_exact (m : ℕ) : Tells (.ofMantissaAndAccuracy m .exact) m := by
  refine ⟨?_, ?_, ?_, ?_⟩ <;> simp [ExtendedMantissa.ofMantissaAndAccuracy]

theorem tells_fraction (m : ℕ) {num den : ℕ} (h : num < den) :
    Tells (.ofMantissaAndAccuracy m (accuracyOfFraction num den)) (m + num / den) := by
  have pos : (0 : ℚ) < den := by exact_mod_cast Nat.zero_lt_of_lt h
  have nonneg : 0 ≤ (num : ℚ) / den := by positivity
  have lt : (num : ℚ) / den < 1 := by
    rw [div_lt_one pos]
    exact_mod_cast h
  have zero : (num : ℚ) / den = 0 ↔ num = 0 := by simp [pos.ne']
  have half_le : 1 / 2 ≤ (num : ℚ) / den ↔ den ≤ 2 * num := by
    rw [div_le_div_iff₀ two_pos pos, one_mul, mul_comm]
    exact_mod_cast Iff.rfl
  have half_eq : (num : ℚ) / den = 1 / 2 ↔ 2 * num = den := by
    rw [div_eq_div_iff pos.ne' two_ne_zero, one_mul, mul_comm]
    exact_mod_cast Iff.rfl
  generalize (num : ℚ) / den = r at *
  unfold accuracyOfFraction ExtendedMantissa.ofMantissaAndAccuracy
  by_cases none : num = 0
  · rw [if_pos none]
    refine ⟨?_, ?_, ?_, ?_⟩ <;> grind
  · rw [if_neg none]
    rcases lt_trichotomy (2 * num) den with less | same | more
    · rw [Nat.compare_eq_lt.mpr less]
      refine ⟨?_, ?_, ?_, ?_⟩ <;> grind
    · rw [Nat.compare_eq_eq.mpr same]
      refine ⟨?_, ?_, ?_, ?_⟩ <;> grind
    · rw [Nat.compare_eq_gt.mpr more]
      refine ⟨?_, ?_, ?_, ?_⟩ <;> grind

namespace Tells

variable {em : ExtendedMantissa} {x : ℚ}

theorem roundedMantissa_eq (h : Tells em x) : em.roundedMantissa = halfEven x := by
  have floor : ⌊x⌋₊ = em.mantissa :=
    (Nat.floor_eq_iff (h.le.trans' (Nat.cast_nonneg _))).mpr ⟨h.le, h.lt⟩
  obtain ⟨m, half, more⟩ := em
  obtain ⟨le, lt, has_half, has_more⟩ := h
  unfold halfEven
  dsimp only at *
  rw [floor]
  unfold ExtendedMantissa.roundedMantissa ExtendedMantissa.accuracy Accuracy.roundToNearestEven
  cases half with
  | _ =>
    cases more with
    | _ => grind

theorem shiftRightOne (h : Tells em x) : Tells em.shiftRightOne (x / 2) := by
  obtain ⟨m, half, more⟩ := em
  obtain ⟨le, lt, has_half, has_more⟩ := h
  have parts : ((m / 2 : ℕ) : ℚ) = (m - (m % 2 : ℕ)) / 2 := by
    have whole : 2 * (m / 2) + m % 2 = m := Nat.div_add_mod m 2
    have : 2 * ((m / 2 : ℕ) : ℚ) + (m % 2 : ℕ) = m := by exact_mod_cast whole
    linarith
  unfold ExtendedMantissa.shiftRightOne
  dsimp only at *
  rcases Nat.mod_two_eq_zero_or_one m with even | odd
  · rw [even] at parts
    refine ⟨?_, ?_, ?_, ?_⟩ <;> dsimp only <;> grind
  · rw [odd] at parts
    refine ⟨?_, ?_, ?_, ?_⟩ <;> dsimp only <;> grind

theorem shiftRight (h : Tells em x) (n : ℕ) : Tells (em >>> n) (x / 2 ^ n) := by
  change Tells (n.repeat ExtendedMantissa.shiftRightOne em) (x / 2 ^ n)
  induction n with
  | zero =>
    rw [pow_zero, div_one]
    exact h
  | succ n ih =>
    rw [pow_succ, ← div_div]
    exact ih.shiftRightOne

end Tells

theorem targetExponent_eq (m : ℕ) (e : ℤ) :
    Format.binary64.targetExponent (totalExponent m e) = max (m.log2 + e - 52) (-1074) := by
  have bits : (Format.binary64.mantissaBits : ℤ) = 53 := rfl
  have least : Format.binary64.minExponent = -1074 := rfl
  unfold Format.targetExponent totalExponent
  rw [bits, least]
  congr 1
  ring

theorem log_eq_of_tells {em : ExtendedMantissa} {q : ℚ} {e : ℤ} (hq : 0 < q)
    (h : Tells em (q / 2 ^ e)) (pos : 0 < em.mantissa) : Int.log 2 q = em.mantissa.log2 + e := by
  have size : (0 : ℚ) < 2 ^ e := by positivity
  have lower : ((2 : ℕ) : ℚ) ^ ((em.mantissa.log2 : ℤ) + e) ≤ q := by
    rw [Nat.cast_two, zpow_add₀ two_ne_zero, zpow_natCast, ← le_div_iff₀ size]
    exact le_trans (by exact_mod_cast Nat.log2_self_le pos.ne') h.le
  have upper : q < ((2 : ℕ) : ℚ) ^ ((em.mantissa.log2 : ℤ) + e + 1) := by
    rw [Nat.cast_two, add_right_comm, zpow_add₀ two_ne_zero, ← div_lt_iff₀ size]
    exact h.lt.trans_le (by exact_mod_cast Nat.lt_log2_self)
  rw [Int.zpow_le_iff_le_log (by decide) hq] at lower
  rw [Int.lt_zpow_iff_log_lt (by decide) hq] at upper
  omega

theorem targetExponent_of_tells {em : ExtendedMantissa} {q : ℚ} {e : ℤ} (hq : 0 < q)
    (h : Tells em (q / 2 ^ e)) (le : e ≤ lastPlace q) :
    Format.binary64.targetExponent (totalExponent em.mantissa e) = lastPlace q := by
  rw [targetExponent_eq]
  unfold lastPlace at le ⊢
  rcases Nat.eq_zero_or_pos em.mantissa with zero | pos
  · -- Nothing is left of `q` above the exponent, so it is among the smallest numbers.
    have small := h.lt
    rw [zero, Nat.cast_zero, zero_add, div_lt_one (by positivity)] at small
    have : Int.log 2 q < e := by
      rw [← Int.lt_zpow_iff_log_lt (by decide) hq]
      exact_mod_cast small
    have : em.mantissa.log2 = 0 := by rw [zero]; rfl
    omega
  · rw [log_eq_of_tells hq h pos]

theorem shiftToTargetExponent_of_lt {n : ℕ} {t : ℤ} (h : n < 2 ^ 53) (least : -1074 ≤ t) :
    shiftToTargetExponent .binary64 n t .exact = (⟨n, false, false⟩, t) := by
  have log : n.log2 ≤ 52 := by
    rcases Nat.eq_zero_or_pos n with rfl | pos
    · decide
    · have := (Nat.log2_lt pos.ne').mpr h
      omega
  have still : (max ((n.log2 : ℤ) + t - 52) (-1074) - t).toNat = 0 := by omega
  unfold shiftToTargetExponent shiftToExponent
  dsimp only
  rw [targetExponent_eq, still, Nat.cast_zero, add_zero]
  rfl

theorem shiftToTargetExponent_two_pow {t : ℤ} (least : -1074 ≤ t) :
    shiftToTargetExponent .binary64 (2 ^ 53) t .exact = (⟨2 ^ 52, false, false⟩, t + 1) := by
  have log : (2 ^ 53 : ℕ).log2 = 53 := Nat.log2_two_pow
  have once : (max (((53 : ℕ) : ℤ) + t - 52) (-1074) - t).toNat = 1 := by omega
  unfold shiftToTargetExponent shiftToExponent
  dsimp only
  rw [targetExponent_eq, log, once]
  rfl

/--
An unpacked double of the sign `s` and the size `r`, with its mantissa in the form in which doubles
have it.
-/
inductive IsSize (s : Sign) (r : ℚ) : UnpackedFloat → Prop where
  | zero (size : r = 0) : IsSize s r (.zero s)
  | finite {m : ℕ} {e : ℤ} {pos : 0 < m} (h : Canonical m e) (size : r = m * 2 ^ e) :
    IsSize s r (.finite s m e pos)

/--
Rounding makes the nearest double of what a mantissa with its accuracy tells, if the mantissa does
not end above the last place that is needed.
-/
theorem isSize_roundWithAccuracy (s : Sign) {m : ℕ} {e : ℤ} {accuracy : Accuracy} {q : ℚ}
    (hq : 0 < q) (h : Tells (.ofMantissaAndAccuracy m accuracy) (q / 2 ^ e))
    (le : e ≤ lastPlace q) :
    IsSize s (rounded q) (roundWithAccuracy .binary64 s m e accuracy) := by
  have least : -1074 ≤ lastPlace q := le_max_right _ _
  have mantissa : (ExtendedMantissa.ofMantissaAndAccuracy m accuracy).mantissa = m := by
    unfold ExtendedMantissa.ofMantissaAndAccuracy
    split <;> rfl
  have target : Format.binary64.targetExponent (totalExponent m e) = lastPlace q := by
    rw [← targetExponent_of_tells hq h le, mantissa]
  have first : (shiftToTargetExponent .binary64 m e accuracy).2 = lastPlace q := by
    unfold shiftToTargetExponent shiftToExponent
    rw [target]
    dsimp only
    omega
  have round : (shiftToTargetExponent .binary64 m e accuracy).1.roundedMantissa =
      halfEven (q / 2 ^ lastPlace q) := by
    unfold shiftToTargetExponent shiftToExponent
    rw [target]
    dsimp only
    rw [(h.shiftRight (lastPlace q - e).toNat).roundedMantissa_eq, div_div, ← zpow_natCast,
      ← zpow_add₀ two_ne_zero]
    congr
    omega
  unfold roundWithAccuracy rounded
  dsimp only
  rw [first, round]
  rcases (halfEven_le q).lt_or_eq with small | carry
  · rw [shiftToTargetExponent_of_lt small least]
    dsimp only
    split
    next none =>
      rw [none, Nat.cast_zero, zero_mul]
      exact .zero rfl
    next some => exact .finite ⟨Nat.pos_of_ne_zero some, small, least, le_halfEven hq⟩ rfl
  · rw [carry, shiftToTargetExponent_two_pow least]
    dsimp only
    rw [dif_neg (by decide)]
    have size : ((2 ^ 53 : ℕ) : ℚ) * 2 ^ lastPlace q = (2 ^ 52 : ℕ) * 2 ^ (lastPlace q + 1) := by
      rw [zpow_add_one₀ two_ne_zero]
      push_cast
      ring
    rw [size]
    exact .finite ⟨by decide, by decide, by omega, fun _ => le_rfl⟩ rfl

theorem IsSize.unique {s : Sign} {r : ℚ} {u v : UnpackedFloat} (h : IsSize s r u)
    (h' : IsSize s r v) : u = v := by
  cases h with
  | zero size =>
    cases h' with
    | zero => rfl
    | finite h' size' => exact absurd (size'.symm.trans size) h'.size_pos.ne'
  | finite h size =>
    cases h' with
    | zero size' => exact absurd (size.symm.trans size') h.size_pos.ne'
    | finite h' size' =>
      obtain ⟨rfl, rfl⟩ := h.eq_of_mul_eq h' (size.symm.trans size')
      rfl

theorem IsSize.size_eq {s t : Sign} {q r : ℚ} {u : UnpackedFloat} (h : IsSize s q u)
    (h' : IsSize t r u) : q = r := by
  cases h with
  | zero size =>
    cases h' with
    | zero size' => exact size.trans size'.symm
  | finite h size =>
    cases h' with
    | finite h' size' => exact size.trans size'.symm

theorem IsSize.neg {s : Sign} {r : ℚ} {u : UnpackedFloat} (h : IsSize s r u) :
    IsSize (-s) r u.neg := by
  cases h with
  | zero size => exact .zero size
  | finite h size => exact .finite h size

theorem IsSize.isFinite {s : Sign} {r : ℚ} {u : UnpackedFloat} (h : IsSize s r u) :
    u.isFinite = true := by
  cases h with
  | _ => rfl

theorem IsSize.sign?_eq {s : Sign} {r : ℚ} {u : UnpackedFloat} (h : IsSize s r u) :
    sign? u = some s := by
  cases h with
  | _ => rfl

theorem Positive.sign?_eq {u : UnpackedFloat} (h : Positive u) : sign? u = some .positive := by
  cases h with
  | _ => rfl

theorem toNat_one_append (m : BitVec 52) : (1#1 ++ m).toNat = 2 ^ 52 + m.toNat := by
  rw [BitVec.toNat_append, ← Nat.shiftLeft_add_eq_or_of_lt m.isLt]
  rfl

/--
A double with all of its places: the first one is not among the bits.
-/
theorem unpack_normal (s : Sign) {e : BitVec 11} (m : BitVec 52) (ones : e ≠ -1#11)
    (zeros : e ≠ 0#11) :
    unpack .binary64 (packComponents .binary64 s e m) =
      .finite s (2 ^ 52 + m.toNat) (e.toNat - 1075) (by omega) := by
  have bias : (Format.binary64.exponentBias : ℤ) = 1023 := rfl
  unfold unpack
  simp only [unpackMantissa_packComponents, unpackExponent_packComponents,
    unpackSign_packComponents, Sign.ofBitVec_toBitVec, if_neg ones, if_neg zeros, bias,
    toNat_one_append]
  rfl

theorem unpack_subnormal (s : Sign) {m : BitVec 52} (some : m ≠ 0#52) :
    unpack .binary64 (packComponents .binary64 s 0#11 m) =
      .finite s m.toNat (-1074) (by simpa [BitVec.toNat_pos, BitVec.pos_iff_ne_zero]) := by
  unfold unpack
  simp only [unpackMantissa_packComponents, unpackExponent_packComponents,
    unpackSign_packComponents, Sign.ofBitVec_toBitVec]
  rw [if_neg (by decide), if_pos trivial, dif_neg some]
  rfl

/--
The least size that is too large for a double.
-/
def limit : ℚ := 2 ^ (1024 : ℤ)

theorem Canonical.size_lt_iff {m : ℕ} {e : ℤ} (h : Canonical m e) :
    (m : ℚ) * 2 ^ e < limit ↔ e ≤ 971 := by
  unfold limit
  constructor
  · intro small
    by_contra large
    have full : (2 : ℚ) ^ (52 : ℤ) ≤ m := by exact_mod_cast h.le (by omega)
    have : (2 : ℚ) ^ (1024 : ℤ) ≤ m * 2 ^ e := by
      calc
        (2 : ℚ) ^ (1024 : ℤ) ≤ 2 ^ (52 + e) := zpow_le_zpow_right₀ one_le_two (by omega)
        _ = 2 ^ (52 : ℤ) * 2 ^ e := zpow_add₀ two_ne_zero _ _
        _ ≤ m * 2 ^ e := by gcongr
    linarith
  · intro le
    have full : (m : ℚ) < 2 ^ (53 : ℤ) := by exact_mod_cast h.lt
    calc
      (m : ℚ) * 2 ^ e < 2 ^ (53 : ℤ) * 2 ^ e := by gcongr
      _ = 2 ^ (53 + e) := (zpow_add₀ two_ne_zero _ _).symm
      _ ≤ 2 ^ (1024 : ℤ) := zpow_le_zpow_right₀ one_le_two (by omega)

theorem unpack_packedInfinity (s : Sign) :
    unpack .binary64 (packedInfinity .binary64 s) = .infinity s := by
  unfold unpack packedInfinity
  simp only [unpackMantissa_packComponents, unpackExponent_packComponents,
    unpackSign_packComponents, Sign.ofBitVec_toBitVec]
  rfl

theorem unpack_packedZero (s : Sign) : unpack .binary64 (packedZero .binary64 s) = .zero s := by
  cases s with
  | _ => rfl

theorem pack_finite (s : Sign) {m : ℕ} {e : ℤ} (pos : 0 < m) (least : -1074 ≤ e) :
    pack .binary64 (.finite s m e pos) =
      if 971 < e then packedInfinity .binary64 s
      else if m.log2 = 52 then
        packComponents .binary64 s (.ofNat 11 (e + 1075).toNat) (.ofNat 52 m)
      else packComponents .binary64 s 0#11 (.ofNat 52 m) := by
  have bias : (Format.binary64.exponentBias : ℤ) = 1023 := rfl
  have biased : (e + 1023 + (52 : ℕ)).toNat = (e + 1075).toNat := by
    congr 1
    omega
  have large : 2 ^ 11 ≤ (e + 1075).toNat + 1 ↔ 971 < e := by omega
  have full : m.log2 + 1 = Format.binary64.mantissaBits ↔ m.log2 = 52 := by
    change m.log2 + 1 = 53 ↔ _
    omega
  unfold pack
  dsimp only
  rw [bias, biased]
  simp only [large, full]

theorem IsSize.unpack_pack {s : Sign} {r : ℚ} {u : UnpackedFloat} (h : IsSize s r u)
    (small : r < limit) : unpack .binary64 (pack .binary64 u) = u := by
  cases h with
  | zero => exact unpack_packedZero s
  | @finite m e pos h size =>
    rw [size, h.size_lt_iff] at small
    rw [pack_finite s pos h.least, if_neg (by omega)]
    split
    next log =>
      have full : 2 ^ 52 ≤ m := by
        rw [← log]
        exact Nat.log2_self_le pos.ne'
      have exponent : (BitVec.ofNat 11 (e + 1075).toNat).toNat = (e + 1075).toNat := by
        rw [BitVec.toNat_ofNat, Nat.mod_eq_of_lt (by omega)]
      have mantissa : (BitVec.ofNat 52 m).toNat = m - 2 ^ 52 := by
        have := h.lt
        rw [BitVec.toNat_ofNat]
        omega
      have ones : BitVec.ofNat 11 (e + 1075).toNat ≠ -1#11 := ofNat_ne_neg_one (by omega)
      have zeros : BitVec.ofNat 11 (e + 1075).toNat ≠ 0#11 := by
        intro same
        rw [same] at exponent
        have := h.least
        simp at exponent
        omega
      rw [unpack_normal s _ ones zeros, finite.injEq, exponent, mantissa]
      have := h.least
      exact ⟨rfl, by omega, by omega⟩
    next log =>
      have part : m < 2 ^ 52 := by
        have := (Nat.log2_lt pos.ne').mpr h.lt
        rw [← Nat.log2_lt pos.ne']
        omega
      have mantissa : (BitVec.ofNat 52 m).toNat = m := by
        rw [BitVec.toNat_ofNat, Nat.mod_eq_of_lt part]
      have some : BitVec.ofNat 52 m ≠ 0#52 := by
        intro none
        rw [none] at mantissa
        exact pos.ne mantissa
      have lowest : e = -1074 := by
        by_contra other
        have := h.le (lt_of_le_of_ne h.least (Ne.symm other))
        omega
      rw [unpack_subnormal s some, finite.injEq, mantissa]
      exact ⟨rfl, rfl, lowest.symm⟩

theorem IsSize.unpack_pack_of_le {s : Sign} {r : ℚ} {u : UnpackedFloat} (h : IsSize s r u)
    (large : limit ≤ r) : unpack .binary64 (pack .binary64 u) = .infinity s := by
  cases h with
  | zero size =>
    rw [size] at large
    exact absurd large (not_le.mpr (zpow_pos two_pos _))
  | @finite m e pos h size =>
    rw [size, ← not_lt, h.size_lt_iff, not_le] at large
    rw [pack_finite s pos h.least, if_pos large]
    exact unpack_packedInfinity s

theorem toBitVec_ofBitVec (b : BitVec 1) : (Sign.ofBitVec b).toBitVec = b := by
  revert b
  decide

theorem eq_packComponents (b : BitVec Format.binary64.numBits) :
    b = packComponents .binary64 (Sign.ofBitVec (unpackSign b)) (unpackExponent b)
      (unpackMantissa b) := by
  unfold packComponents
  rw [toBitVec_ofBitVec]
  ext i h
  simp only [BitVec.getElem_append, unpackMantissa, unpackExponent, unpackSign]
  split
  next low =>
    simp
    exact (BitVec.getLsbD_eq_getElem h).symm
  next high =>
    split
    · simp
      congr
      omega
    next top =>
      simp
      have last : i = 63 := by
        change i < 64 at h
        change ¬ i - 52 < 11 at top
        omega
      subst last
      rfl

/--
The bits of a double, and what they are unpacked to.
-/
inductive Shape : BitVec Format.binary64.numBits → UnpackedFloat → Prop where
  | infinity (s : Sign) : Shape (packedInfinity .binary64 s) (.infinity s)
  | notANumber : Shape (packedNaN .binary64) .notANumber
  | zero (s : Sign) : Shape (packedZero .binary64 s) (.zero s)
  | subnormal (s : Sign) (m : BitVec 52) (pos : 0 < m.toNat) :
    Shape (packComponents .binary64 s 0#11 m) (.finite s m.toNat (-1074) pos)
  | normal (s : Sign) (e : BitVec 11) (m : BitVec 52) (least : 0 < e.toNat) (le : e.toNat ≤ 2046) :
    Shape (packComponents .binary64 s e m)
      (.finite s (2 ^ 52 + m.toNat) (e.toNat - 1075) (by omega))

theorem shape_unpack {b : BitVec Format.binary64.numBits} (valid : Format.binary64.Valid b) :
    Shape b (unpack .binary64 b) := by
  have nan := valid.eq_packedNaN
  have parts := eq_packComponents b
  generalize Sign.ofBitVec (unpackSign b) = s at parts
  generalize (unpackExponent b : BitVec 11) = e at parts nan
  generalize (unpackMantissa b : BitVec 52) = m at parts nan
  by_cases ones : e = -1#11
  · by_cases none : m = 0#52
    · have same : b = packedInfinity .binary64 s := by rw [parts, ones, none]; rfl
      rw [same, unpack_packedInfinity]
      exact .infinity s
    · rw [nan ones none]
      exact .notANumber
  · by_cases zeros : e = 0#11
    · by_cases none : m = 0#52
      · have same : b = packedZero .binary64 s := by rw [parts, zeros, none]; rfl
        rw [same, unpack_packedZero]
        exact .zero s
      · rw [parts, zeros, unpack_subnormal s none]
        apply Shape.subnormal
    · rw [parts, unpack_normal s m ones zeros]
      apply Shape.normal
      · simpa [BitVec.toNat_pos, BitVec.pos_iff_ne_zero] using zeros
      · have lt : e.toNat < 2 ^ 11 := e.isLt
        have : e.toNat ≠ 2047 := fun same => ones (BitVec.eq_of_toNat_eq same)
        omega

theorem canonical_subnormal {m : BitVec 52} (pos : 0 < m.toNat) : Canonical m.toNat (-1074) := by
  have := m.isLt
  exact ⟨pos, by omega, le_rfl, fun h => absurd h (by decide)⟩

theorem canonical_normal {e : BitVec 11} {m : BitVec 52} (least : 0 < e.toNat) :
    Canonical (2 ^ 52 + m.toNat) (e.toNat - 1075) := by
  have := m.isLt
  exact ⟨by omega, by omega, by omega, fun _ => by omega⟩

namespace Shape

variable {b : BitVec Format.binary64.numBits} {u : UnpackedFloat}

theorem pack_eq (h : Shape b u) : pack .binary64 u = b := by
  cases h with
  | infinity | notANumber | zero => rfl
  | subnormal s m pos =>
    have part : m.toNat.log2 ≠ 52 := by
      have := (Nat.log2_lt pos.ne').mpr m.isLt
      omega
    rw [pack_finite s pos (by decide), if_neg (by decide), if_neg part, BitVec.ofNat_toNat]
    rfl
  | normal s e m least le =>
    have full : (2 ^ 52 + m.toNat).log2 = 52 := by
      have := m.isLt
      rw [Nat.log2_eq_iff (by omega)]
      omega
    have exponent : ((e.toNat : ℤ) - 1075 + 1075).toNat = e.toNat := by omega
    have mantissa : BitVec.ofNat 52 (2 ^ 52 + m.toNat) = m := by
      apply BitVec.eq_of_toNat_eq
      have := m.isLt
      rw [BitVec.toNat_ofNat]
      omega
    rw [pack_finite s (by omega) (by omega), if_neg (by omega), if_pos full, exponent, mantissa,
      BitVec.ofNat_toNat]
    rfl

/--
The mantissa of a finite double is in the right form.
-/
theorem exists_isSize (h : Shape b u) (finite : u.isFinite = true) :
    ∃ s r, r < limit ∧ IsSize s r u := by
  cases h with
  | infinity | notANumber => cases finite
  | zero s => exact ⟨s, 0, zpow_pos two_pos _, .zero rfl⟩
  | subnormal s m pos =>
    have form := canonical_subnormal pos
    exact ⟨s, _, form.size_lt_iff.mpr (by decide), .finite form rfl⟩
  | normal s e m least le =>
    have form := canonical_normal (m := m) least
    exact ⟨s, _, form.size_lt_iff.mpr (by omega), .finite form rfl⟩

end Shape

end Double

end Stagecraft
