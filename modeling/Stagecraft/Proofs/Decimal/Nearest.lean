import Stagecraft.Proofs.Decimal.Operations

/-!
This module contains the sizes of doubles. A finite double has a sign and a size, and it is the only
one that has them. The operations on doubles make the nearest one, which is an infinite one where
the result is too large.
-/

namespace Stagecraft

namespace Double

open Float.Model (UnpackedFloat Format)
open Float.Model.UnpackedFloat

theorem eq_of_unpack_eq {x y : Float} (h : x.toModel.unpack = y.toModel.unpack) : x = y := by
  have packed (z : Float.Model) : pack .binary64 z.unpack = z.toBits.toBitVec :=
    (shape_unpack z.valid).pack_eq
  obtain ⟨⟨a, _⟩⟩ := x
  obtain ⟨⟨b, _⟩⟩ := y
  have bits := packed ⟨a, ‹_›⟩
  rw [h, packed] at bits
  congr
  exact (UInt64.eq_of_toBitVec_eq bits).symm

/--
A finite double of the sign `s` and the size `r`.
-/
structure HasSize (x : Float) (s : Sign) (r : ℚ) : Prop where
  unpack : IsSize s r x.toModel.unpack
  lt : r < limit

/--
The double with the sign `s` that is nearest to the size `q`.
-/
structure IsNearest (x : Float) (s : Sign) (q : ℚ) : Prop where
  finite (lt : rounded q < limit) : HasSize x s (rounded q)
  infinite (le : limit ≤ rounded q) : x.toModel.unpack = .infinity s

variable {x y : Float} {s t : Sign} {p q r : ℚ}

theorem HasSize.eq (h : HasSize x s r) (h' : HasSize y s r) : x = y :=
  eq_of_unpack_eq (h.unpack.unique h'.unpack)

theorem HasSize.isNearest (h : HasSize x s r) : IsNearest x s r := by
  constructor
  · intro lt
    rwa [h.unpack.rounded_eq]
  · intro le
    rw [h.unpack.rounded_eq] at le
    exact absurd h.lt (not_lt.mpr le)

theorem IsNearest.eq (h : IsNearest x s q) (h' : IsNearest y s q) : x = y := by
  rcases lt_or_ge (rounded q) limit with lt | le
  · exact (h.finite lt).eq (h'.finite lt)
  · exact eq_of_unpack_eq ((h.infinite le).trans (h'.infinite le).symm)

theorem HasSize.isFinite (h : HasSize x s r) : x.isFinite = true := h.unpack.isFinite

theorem exists_hasSize (finite : x.isFinite = true) : ∃ s r, HasSize x s r := by
  obtain ⟨s, r, lt, h⟩ := (shape_unpack x.toModel.valid).exists_isSize finite
  exact ⟨s, r, h, lt⟩

theorem isFinite_of_infinity (h : x.toModel.unpack = .infinity s) : x.isFinite = false := by
  change x.toModel.unpack.isFinite = false
  rw [h]
  rfl

theorem IsNearest.isFinite_iff (h : IsNearest x s q) : x.isFinite = true ↔ rounded q < limit := by
  constructor
  · intro finite
    by_contra le
    rw [isFinite_of_infinity (h.infinite (not_lt.mp le))] at finite
    cases finite
  · intro lt
    exact (h.finite lt).isFinite

theorem IsNearest.hasSize_rounded (h : IsNearest x s q) (finite : x.isFinite = true) :
    HasSize x s (rounded q) :=
  h.finite (h.isFinite_iff.mp finite)

theorem IsNearest.rounded_eq (h : IsNearest x s q) (h' : HasSize x t r) : rounded q = r :=
  (h.hasSize_rounded h'.isFinite).unpack.size_eq h'.unpack

theorem isInf_of_infinity (h : x.toModel.unpack = .infinity s) : x.isInf = true := by
  change x.toModel.unpack.isInf = true
  rw [h]
  rfl

theorem isNaN_of_infinity (h : x.toModel.unpack = .infinity s) : x.isNaN = false := by
  change x.toModel.unpack.isNaN = false
  rw [h]
  rfl

theorem isNaN_of_notANumber (h : x.toModel.unpack = .notANumber) : x.isNaN = true := by
  change x.toModel.unpack.isNaN = true
  rw [h]
  rfl

theorem isNaN_of_isFinite (h : x.isFinite = true) : x.isNaN = false := by
  change x.toModel.unpack.isFinite = true at h
  change x.toModel.unpack.isNaN = false
  generalize x.toModel.unpack = u at h
  cases u with
  | notANumber => cases h
  | _ => rfl

theorem isInf_of_isFinite (h : x.isFinite = true) : x.isInf = false := by
  change x.toModel.unpack.isFinite = true at h
  change x.toModel.unpack.isInf = false
  generalize x.toModel.unpack = u at h
  cases u with
  | infinity => cases h
  | _ => rfl

theorem zero_lt_of_infinity (h : x.toModel.unpack = .infinity .positive) : 0 < x := by
  rw [lt_iff, h]
  rfl

theorem HasSize.sign_eq_of_zero_lt (h : HasSize x s r) (pos : 0 < x) : s = .positive :=
  Option.some_inj.mp (h.unpack.sign?_eq.symm.trans (positive_of_zero_lt pos).sign?_eq)

theorem hasSize_zero : HasSize 0.0 .positive 0 := ⟨.zero rfl, zpow_pos two_pos _⟩

theorem HasSize.nonneg (h : HasSize x s r) : 0 ≤ r := h.unpack.rounded_eq ▸ rounded_nonneg r

theorem rounded_le_rounded (nonneg : 0 ≤ p) (le : p ≤ q) : rounded p ≤ rounded q := by
  rcases nonneg.eq_or_lt with rfl | pos
  · rw [rounded_zero]
    exact rounded_nonneg q
  · exact rounded_mono pos le

theorem HasSize.le_rounded (h : HasSize x s p) (le : p ≤ q) : p ≤ rounded q := by
  rw [← h.unpack.rounded_eq]
  exact rounded_le_rounded h.nonneg le

theorem HasSize.rounded_le (h : HasSize x s q) (nonneg : 0 ≤ p) (le : p ≤ q) : rounded p ≤ q := by
  rw [← h.unpack.rounded_eq]
  exact rounded_le_rounded nonneg le

theorem isNearest_ofModel {u : UnpackedFloat} (h : IsSize s (rounded q) u) :
    IsNearest (.ofModel (.pack u)) s q := by
  constructor
  · intro lt
    have kept : (Float.ofModel (.pack u)).toModel.unpack = u := h.unpack_pack lt
    exact ⟨kept.symm ▸ h, lt⟩
  · intro le
    exact h.unpack_pack_of_le le

theorem HasSize.add (h : HasSize x .positive p) (h' : HasSize y .positive q) :
    IsNearest (x + y) .positive (p + q) :=
  isNearest_ofModel (h.unpack.add h'.unpack)

theorem HasSize.sub (h : HasSize x .positive p) (h' : HasSize y .positive q) (le : q ≤ p) :
    IsNearest (x - y) .positive (p - q) :=
  isNearest_ofModel (h.unpack.sub h'.unpack le)

theorem HasSize.mul (h : HasSize x s p) (h' : HasSize y t q) :
    IsNearest (x * y) (s * t) (p * q) :=
  isNearest_ofModel (h.unpack.mul h'.unpack)

theorem unpack_add (x y : Float) :
    (x + y).toModel.unpack =
      unpack .binary64 (pack .binary64 (add .binary64 x.toModel.unpack y.toModel.unpack)) := rfl

theorem unpack_sub (x y : Float) :
    (x - y).toModel.unpack =
      unpack .binary64 (pack .binary64 (sub .binary64 x.toModel.unpack y.toModel.unpack)) := rfl

theorem HasSize.infinity_add (h : HasSize y s r)
    (infinite : x.toModel.unpack = .infinity .positive) :
    (x + y).toModel.unpack = .infinity .positive := by
  rw [unpack_add, infinite, h.unpack.infinity_add]
  exact unpack_packedInfinity .positive

theorem HasSize.infinity_sub (h : HasSize y s r)
    (infinite : x.toModel.unpack = .infinity .positive) :
    (x - y).toModel.unpack = .infinity .positive := by
  rw [unpack_sub, infinite, h.unpack.infinity_sub]
  exact unpack_packedInfinity .positive

theorem infinity_sub_infinity (h : x.toModel.unpack = .infinity .positive)
    (h' : y.toModel.unpack = .infinity .positive) : (x - y).toModel.unpack = .notANumber := by
  rw [unpack_sub, h, h']
  rfl

theorem HasSize.zero_le (h : HasSize x .positive r) : 0 ≤ x :=
  zero_le_of_sign? h.unpack.sign?_eq

theorem HasSize.le (h : HasSize x .positive p) (h' : HasSize y .positive q) (le : p ≤ q) : x ≤ y :=
  le_iff.mpr (h.unpack.le h'.unpack le)

theorem HasSize.le_infinity (h : HasSize x .positive r)
    (infinite : y.toModel.unpack = .infinity .positive) : x ≤ y := by
  rw [le_iff, infinite]
  exact h.unpack.le_infinity

end Double

end Stagecraft
