import Stagecraft.Proofs.Decimal.Shortest

/-!
This module contains how many digits it takes to tell a double from all others. There are seventeen
at most, because a number that is as near to a double as one with seventeen digits can be is rounded
to it.
-/

namespace Stagecraft

namespace Double

open Float.Model (UnpackedFloat)
open Float.Model.UnpackedFloat

/--
A number that differs from a double by less than one part in `2 * 10 ^ 16` is rounded to it. Below a
power of two, where the doubles are closer to each other, this is still less than half of a step.
-/
theorem Canonical.rounded_eq_of_near {m : ℕ} {e : ℤ} (h : Canonical m e) {p : ℚ}
    (near : |p - m * 2 ^ e| ≤ m * 2 ^ e / (2 * 10 ^ 16)) : rounded p = m * 2 ^ e := by
  obtain ⟨lower, upper⟩ := abs_le.mp near
  have unit : (0 : ℚ) < 2 ^ e := by positivity
  have most : (m : ℚ) + 1 ≤ 2 ^ 53 := by exact_mod_cast h.lt
  have pos : 0 < p := by
    have := h.size_pos
    linarith
  unfold rounded
  by_cases full : -1074 < e → 2 ^ 52 * 2 ^ e ≤ p
  · have place : lastPlace p = e := by
      apply Double.lastPlace_eq pos h.least _ full
      nlinarith
    rw [place]
    congr 2
    apply halfEven_eq (by positivity)
    · rw [lt_div_iff₀ unit]
      nlinarith
    · rw [div_lt_iff₀ unit]
      nlinarith
  · push Not at full
    obtain ⟨above, below⟩ := full
    have power : m = 2 ^ 52 := by
      apply le_antisymm _ (h.le above)
      by_contra more
      have : (2 : ℚ) ^ 52 + 1 ≤ m := by exact_mod_cast not_le.mp more
      nlinarith
    subst power
    have half : (2 : ℚ) ^ e = 2 * 2 ^ (e - 1) := by
      rw [← zpow_one_add₀ two_ne_zero]
      congr 1
      ring
    have place : lastPlace p = e - 1 := by
      apply Double.lastPlace_eq pos (by omega)
      · linarith
      · intro _
        push_cast at lower
        linarith
    have smaller : (0 : ℚ) < 2 ^ (e - 1) := by positivity
    have last : halfEven (p / 2 ^ (e - 1)) = 2 ^ 53 := by
      apply halfEven_eq (by positivity)
      · rw [lt_div_iff₀ smaller]
        push_cast at lower ⊢
        linarith
      · rw [div_lt_iff₀ smaller]
        push_cast
        linarith
    rw [place, last, half]
    push_cast
    ring

theorem HasSize.rounded_eq_of_near {x : Float} {s : Sign} {p r : ℚ}
    (h : HasSize x s r) (near : |p - r| ≤ r / (2 * 10 ^ 16)) : rounded p = r := by
  obtain ⟨unpack, _⟩ := h
  generalize x.toModel.unpack = u at unpack
  cases unpack with
  | zero none =>
    subst none
    rw [sub_zero, zero_div] at near
    rw [abs_nonpos_iff.mp near, rounded_zero]
  | finite canonical size =>
    subst size
    exact canonical.rounded_eq_of_near near

theorem HasSize.beq_self {x : Float} {r : ℚ} (h : HasSize x .positive r) : (x == x) = true := by
  obtain ⟨unpack, _⟩ := h
  change x.toModel.unpack.beq x.toModel.unpack = true
  generalize x.toModel.unpack = u at unpack
  cases unpack with
  | zero => rfl
  | @finite m e pos =>
    have order : (compare e e).then (compare m m) = .eq :=
      Ordering.then_eq_eq.mpr ⟨Int.compare_eq_eq.mpr rfl, Nat.compare_eq_eq.mpr rfl⟩
    change (some ((compare e e).then (compare m m)) == some Ordering.eq) = true
    rw [order]
    rfl

end Double

/--
Both neighbours of a quotient are not above what is above the quotient.
-/
theorem neighbours_le (tie : Tie) {num den n : ℕ} (h : num < n * den) :
    (neighbours tie num den).1 ≤ n ∧ (neighbours tie num den).2 ≤ n := by
  have := Nat.div_lt_of_lt_mul (Nat.mul_comm n den ▸ h)
  unfold neighbours
  dsimp only
  split
  · omega
  · split
    · omega
    · cases tie with
      | up => dsimp only; omega
      | even =>
        dsimp only
        split
        · dsimp only; omega
        · dsimp only; omega

theorem abs_neighbours_sub_le (tie : Tie) (num : ℕ) {den : ℕ} (pos : 0 < den) :
    |((neighbours tie num den).1 : ℚ) - num / den| ≤ 1 / 2 := by
  have positive : (0 : ℚ) < den := by exact_mod_cast pos
  have lt : ((num % den : ℕ) : ℚ) / den < 1 := by
    rw [div_lt_one positive]
    exact_mod_cast Nat.mod_lt num pos
  have nonneg : 0 ≤ ((num % den : ℕ) : ℚ) / den := by positivity
  have less : 2 * (num % den) ≤ den → ((num % den : ℕ) : ℚ) / den ≤ 1 / 2 := by
    intro le
    rw [div_le_iff₀ positive, div_mul_eq_mul_div, one_mul, le_div_iff₀ two_pos, mul_comm]
    exact_mod_cast le
  have more : den ≤ 2 * (num % den) → 1 / 2 ≤ ((num % den : ℕ) : ℚ) / den := by
    intro le
    rw [le_div_iff₀ positive, div_mul_eq_mul_div, one_mul, div_le_iff₀ two_pos, mul_comm _ 2]
    exact_mod_cast le
  rw [← natDiv_add_natMod_div num pos]
  generalize ((num % den : ℕ) : ℚ) / den = part at lt nonneg less more
  have below : 2 * (num % den) ≤ den →
      |((num / den : ℕ) : ℚ) - ((num / den : ℕ) + part)| ≤ 1 / 2 := by
    intro le
    rw [sub_add_cancel_left, abs_neg, abs_of_nonneg nonneg]
    exact less le
  have above : den ≤ 2 * (num % den) →
      |((num / den + 1 : ℕ) : ℚ) - ((num / den : ℕ) + part)| ≤ 1 / 2 := by
    intro le
    rw [Nat.cast_succ, add_sub_add_left_eq_sub, abs_of_nonneg (by linarith)]
    linarith [more le]
  unfold neighbours
  dsimp only
  split
  · exact below (by omega)
  · split
    · exact above (by omega)
    · cases tie with
      | up => exact above (by omega)
      | even =>
        dsimp only
        split
        · exact below (by omega)
        · exact above (by omega)

theorem lt_ten_pow_length (n : ℕ) : n < 10 ^ (Nat.toDigits 10 n).length :=
  (Nat.length_toDigits_le_iff (by decide) Nat.length_toDigits_pos).mp le_rfl

theorem ten_pow_length_le {n : ℕ} (pos : 0 < n) : 10 ^ ((Nat.toDigits 10 n).length - 1) ≤ n := by
  rcases Nat.eq_zero_or_pos ((Nat.toDigits 10 n).length - 1) with none | some
  · rw [none]
    exact pos
  · by_contra lt
    have := (Nat.length_toDigits_le_iff (by decide) some).mpr (not_le.mp lt)
    omega

/--
The leading exponent is the one of the first digit.
-/
theorem leadingExponent_bounds {num den : ℕ} (hnum : 0 < num) (hden : 0 < den) :
    (10 : ℚ) ^ leadingExponent num den ≤ num / den ∧
      (num : ℚ) / den < 10 ^ (leadingExponent num den + 1) := by
  have positive : (0 : ℚ) < den := by exact_mod_cast hden
  unfold leadingExponent
  split
  next large =>
    have lower := ten_pow_length_le (Nat.div_pos large hden)
    have upper := lt_ten_pow_length (num / den)
    have exponent : ((Nat.toDigits 10 (num / den)).length : ℤ) - 1 =
        ((Nat.toDigits 10 (num / den)).length - 1 : ℕ) := by
      have := Nat.length_toDigits_pos (b := 10) (n := num / den)
      omega
    constructor
    · rw [exponent, zpow_natCast, le_div_iff₀ positive]
      exact_mod_cast (Nat.le_div_iff_mul_le hden).mp lower
    · rw [sub_add_cancel, zpow_natCast, div_lt_iff₀ positive]
      exact_mod_cast (Nat.div_lt_iff_lt_mul hden).mp upper
  next small =>
    obtain ⟨c, ceiling⟩ : ∃ c, (den + num - 1) / num = c + 1 :=
      Nat.exists_eq_add_one.mpr (Nat.div_pos (by omega) hnum)
    have parts := Nat.div_add_mod (den + num - 1) num
    have rest := Nat.mod_lt (den + num - 1) hnum
    rw [ceiling, Nat.mul_succ] at parts
    have some : 0 < c := by
      by_contra none
      rw [Nat.eq_zero_of_not_pos none, Nat.mul_zero] at parts
      omega
    have lower := ten_pow_length_le some
    have upper := lt_ten_pow_length c
    rw [ceiling, Nat.add_sub_cancel]
    generalize length : (Nat.toDigits 10 c).length = k at lower upper
    obtain ⟨k, rfl⟩ := Nat.exists_eq_add_one.mpr (length ▸ Nat.length_toDigits_pos)
    rw [Nat.add_sub_cancel] at lower
    constructor
    · rw [zpow_neg, zpow_natCast, inv_le_comm₀ (by positivity) (by positivity), inv_div,
        div_le_iff₀ (by exact_mod_cast hnum)]
      have : den ≤ 10 ^ (k + 1) * num := by
        have := Nat.mul_le_mul_right num upper
        rw [Nat.succ_mul, Nat.mul_comm c] at this
        omega
      exact_mod_cast this
    · have power : -((k + 1 : ℕ) : ℤ) + 1 = -(k : ℤ) := by omega
      rw [power, zpow_neg, zpow_natCast, lt_inv_comm₀ (by positivity) (by positivity), inv_div,
        lt_div_iff₀ (by exact_mod_cast hnum)]
      have : 10 ^ k * num < den := by
        have := Nat.mul_le_mul_right num lower
        rw [Nat.mul_comm c] at this
        omega
      exact_mod_cast this

namespace Decimal

open Double

variable {x : Float}

/--
The number of which the neighbours are taken, when the digits of a double end at a unit.
-/
theorem grid_quotient (x : Float) (unit : ℤ) :
    ((numerator x * scale 10 (-unit) : ℕ) : ℚ) / (denominator x * scale 10 unit : ℕ) =
      significand x * 2 ^ power x / 10 ^ unit := by
  have powers := scale_div_scale 10 (-unit)
  rw [neg_neg] at powers
  rw [Nat.cast_mul, Nat.cast_mul, mul_div_mul_comm, numerator_div_denominator, powers, zpow_neg]
  rfl

theorem scale_pos {base : ℕ} (pos : 0 < base) (e : ℤ) : 0 < scale base e := Nat.pow_pos pos

theorem denominator_pos (x : Float) : 0 < denominator x := scale_pos two_pos _

theorem numerator_pos (some : 0 < significand x) : 0 < numerator x :=
  Nat.mul_pos some (scale_pos two_pos _)

theorem coefficient_le_of_mem_onGrid (tie : Tie) (some : 0 < significand x) (n : ℕ) {d : Decimal}
    (mem : d ∈ onGrid tie x (leadingExponent (numerator x) (denominator x) - n)) :
    d.coefficient ≤ 10 ^ (n + 1) := by
  have upper := (leadingExponent_bounds (numerator_pos some) (denominator_pos x)).2
  rw [numerator_div_denominator] at upper
  unfold onGrid at mem
  generalize leadingExponent (numerator x) (denominator x) = leading at upper mem
  have quotient := grid_quotient x (leading - n)
  have pos : 0 < denominator x * scale 10 (leading - n) :=
    Nat.mul_pos (denominator_pos x) (scale_pos (by decide) _)
  have lt : numerator x * scale 10 (-(leading - n)) <
      10 ^ (n + 1) * (denominator x * scale 10 (leading - n)) := by
    have : ((numerator x * scale 10 (-(leading - n)) : ℕ) : ℚ) /
        (denominator x * scale 10 (leading - n) : ℕ) < (10 ^ (n + 1) : ℕ) := by
      rw [quotient, div_lt_iff₀ (by positivity), Nat.cast_pow, Nat.cast_ofNat, ← zpow_natCast,
        ← zpow_add₀ (by norm_num), show ((n + 1 : ℕ) : ℤ) + (leading - n) = leading + 1 by omega]
      exact upper
    rw [div_lt_iff₀ (by exact_mod_cast pos)] at this
    exact_mod_cast this
  have bounds := neighbours_le tie lt
  simp only [List.mem_cons, List.not_mem_nil, or_false] at mem
  obtain rfl | rfl := mem
  · exact bounds.1
  · exact bounds.2

/--
The nearer one of the neighbours with seventeen digits stands for the double.
-/
theorem exists_mem_onGrid (tie : Tie) (finite : x.isFinite = true) (some : 0 < significand x)
    {unit : ℤ} (h : unit = leadingExponent (numerator x) (denominator x) - 16) :
    ∃ d ∈ onGrid tie x unit, d.toFloat = magnitude x := by
  refine ⟨⟨(neighbours tie (numerator x * scale 10 (-unit)) (denominator x * scale 10 unit)).1,
    unit⟩, List.mem_cons_self, ?_⟩
  have size := hasSize_magnitude finite
  have lower := (leadingExponent_bounds (numerator_pos some) (denominator_pos x)).1
  have half := abs_neighbours_sub_le tie (numerator x * scale 10 (-unit))
    (Nat.mul_pos (denominator_pos x) (scale_pos (by decide : 0 < 10) unit))
  rw [numerator_div_denominator, show leadingExponent _ _ = 16 + unit by omega,
    zpow_add₀ (by norm_num)] at lower
  rw [grid_quotient] at half
  generalize (neighbours tie _ _).1 = digits at half ⊢
  generalize (significand x : ℚ) * 2 ^ power x = r at size lower half
  have pos : (0 : ℚ) < 10 ^ unit := by positivity
  have near : |(digits : ℚ) * 10 ^ unit - r| ≤ r / (2 * 10 ^ 16) := by
    have scaled : (digits : ℚ) * 10 ^ unit - r = (digits - r / 10 ^ unit) * 10 ^ unit := by
      field_simp
    rw [scaled, abs_mul, abs_of_pos pos, le_div_iff₀ (by positivity)]
    nlinarith
  have rounded := size.rounded_eq_of_near near
  have nearest : IsNearest _ .positive (digits * 10 ^ unit) :=
    (⟨digits, unit⟩ : Decimal).isNearest_toFloat
  exact (nearest.finite (rounded ▸ size.lt)).eq (rounded.symm ▸ size)

theorem coefficient_short_le (digits : ℕ) (d : Decimal) :
    (short digits d).coefficient ≤ max d.coefficient 1 := by
  unfold short
  split
  · exact le_max_right _ _
  · exact le_max_left _ _

/--
Seventeen digits are always enough.
-/
theorem coefficient_shortest_le (tie : Tie) (finite : x.isFinite = true) :
    (shortest tie x).coefficient ≤ 10 ^ 17 := by
  unfold shortest
  dsimp only
  split
  · exact Nat.zero_le _
  next some =>
    have some := Nat.pos_of_ne_zero some
    generalize found : List.findSome? _ _ = d?
    cases d? with
    | none =>
      have last := List.findSome?_eq_none_iff.mp found 16 (by decide)
      rw [Option.map_eq_none_iff, List.find?_eq_none] at last
      obtain ⟨d, mem, same⟩ := exists_mem_onGrid tie finite some rfl
      have other := last d mem
      rw [same, (hasSize_magnitude finite).beq_self] at other
      exact absurd rfl other
    | some d =>
      obtain ⟨n, mem, read⟩ := List.exists_of_findSome?_eq_some found
      obtain ⟨d', first, rfl⟩ := Option.map_eq_some_iff.mp read
      have few : 10 ^ (n + 1) ≤ 10 ^ 17 := Nat.pow_le_pow_right (by decide) (List.mem_range.mp mem)
      have le := coefficient_le_of_mem_onGrid tie some n (List.mem_of_find?_eq_some first)
      exact (coefficient_short_le _ d').trans (max_le (le.trans few) (by decide))

end Decimal

end Stagecraft
