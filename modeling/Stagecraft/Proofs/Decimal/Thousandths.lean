import Stagecraft.Decimal.Layout
import Stagecraft.Proofs.Decimal.Shortest

/-!
This module contains the text of a double with three places: it has the digits of the number of
thousandths that is nearest to the double.
-/

namespace Stagecraft

open Double
open Float.Model.UnpackedFloat

theorem roundDiv_even (num : ℕ) {den : ℕ} (pos : 0 < den) :
    roundDiv .even num den = halfEven (num / den) := by
  have lt := Nat.mod_lt num pos
  -- Doubles are rounded in the same way, by what the rest of a quotient tells.
  have told := tells_fraction (num / den) lt
  rw [natDiv_add_natMod_div num pos] at told
  rw [← told.roundedMantissa_eq]
  unfold roundDiv neighbours accuracyOfFraction
  dsimp only
  by_cases none : num % den = 0
  · rw [if_pos none, if_pos (by omega)]
    rfl
  · rw [if_neg none]
    rcases lt_trichotomy (2 * (num % den)) den with less | same | more
    · rw [if_pos less, Nat.compare_eq_lt.mpr less]
      rfl
    · rw [if_neg (by omega), if_neg (by omega), Nat.compare_eq_eq.mpr same]
      change _ = num / den + num / den % 2
      split
      · omega
      · omega
    · rw [if_neg (by omega), if_pos more, Nat.compare_eq_gt.mpr more]
      rfl

variable {x : Float} {s : Sign}

theorem thousandths_eq (x : Float) :
    thousandths x = halfEven (significand x * 2 ^ power x * 1000) := by
  have pos : 0 < denominator x := Nat.pow_pos two_pos
  unfold thousandths
  rw [roundDiv_even _ pos, Nat.cast_mul, mul_div_right_comm, numerator_div_denominator]
  rfl

/--
The last three digits of a number.
-/
def lastDigits (n : ℕ) : String :=
  String.ofList [(n / 100 % 10).digitChar, (n / 10 % 10).digitChar, (n % 10).digitChar]

def signText : Sign → String
  | .positive => ""
  | .negative => "-"

/--
The text of a double with three places. It is the nearest number of thousandths, and of two the even
one, behind the sign of the double. So what is negative and small keeps its sign.
-/
inductive ThreePlaces (x : Float) : String → Prop where
  | notANumber (h : x.toModel.unpack = .notANumber) : ThreePlaces x "NaN"
  | infinite {s : Sign} (h : x.toModel.unpack = .infinity s) : ThreePlaces x (signText s ++ "inf")
  | finite {s : Sign} {size : ℚ} {n : ℕ} (h : HasSize x s size)
    (nearest : n = halfEven (size * 1000)) :
    ThreePlaces x (signText s ++ (toString (n / 1000) ++ "." ++ lastDigits n))

theorem lastDigits_mod (n : ℕ) : lastDigits (n % 1000) = lastDigits n := by
  unfold lastDigits
  rw [show n % 1000 / 100 % 10 = n / 100 % 10 by omega,
    show n % 1000 / 10 % 10 = n / 10 % 10 by omega, show n % 1000 % 10 = n % 10 by omega]

theorem zeros_append_toString {n : ℕ} (lt : n < 1000) :
    zeros (3 - (toString n).length) ++ toString n = lastDigits n := by
  have digits : List.replicate (3 - (Nat.toDigits 10 n).length) '0' ++ Nat.toDigits 10 n =
      [(n / 100 % 10).digitChar, (n / 10 % 10).digitChar, (n % 10).digitChar] := by
    rcases Nat.lt_or_ge n 10 with one | more
    · rw [Nat.toDigits_of_lt_base one, show n / 100 % 10 = 0 by omega,
        show n / 10 % 10 = 0 by omega, Nat.mod_eq_of_lt one]
      rfl
    · rw [Nat.toDigits_of_base_le (by decide) more]
      rcases Nat.lt_or_ge (n / 10) 10 with two | three
      · rw [Nat.toDigits_of_lt_base two, show n / 100 % 10 = 0 by omega, Nat.mod_eq_of_lt two]
        rfl
      · rw [Nat.toDigits_of_base_le (by decide) three,
          Nat.toDigits_of_lt_base (show n / 10 / 10 < 10 by omega),
          show n / 100 % 10 = n / 10 / 10 by omega]
        rfl
  unfold zeros lastDigits
  rw [Nat.toString_eq_ofList_toDigits, String.length_ofList, ← String.ofList_append, digits]

theorem Double.Shape.signOf_eq {b : BitVec Float.Model.Format.binary64.numBits}
    (h : Shape b (.infinity s)) (bits : x.toBits.toBitVec = b) : signOf x = s := by
  cases h with
  | infinity => exact (hasFields (e := -1#11) (m := 0#52) bits).sign

theorem signText_append (x : Float) (size : String) :
    signText (signOf x) ++ size = if isNegative x then "-" ++ size else size := by
  unfold signOf
  cases isNegative x with
  | true => rfl
  | false => exact String.empty_append

theorem fixedThree_of_infinity (h : x.toModel.unpack = .infinity s) :
    fixedThree x = signText s ++ "inf" := by
  have shape : Shape x.toBits.toBitVec x.toModel.unpack := shape_unpack x.toModel.valid
  rw [h] at shape
  have number : x.isNaN = false := by
    change x.toModel.unpack.isNaN = false
    rw [h]
    rfl
  unfold fixedThree
  rw [number, isInf_of_infinity h, ← shape.signOf_eq rfl, signText_append]
  rfl

theorem fixedThree_of_isFinite (finite : x.isFinite = true) :
    fixedThree x = signText (signOf x) ++
      (toString (thousandths x / 1000) ++ "." ++ lastDigits (thousandths x)) := by
  have places := zeros_append_toString (Nat.mod_lt (thousandths x) (by decide : 0 < 1000))
  rw [lastDigits_mod] at places
  unfold fixedThree
  rw [signText_append, isNaN_of_isFinite finite, isInf_of_isFinite finite, ← places]
  simp only [String.append_assoc]
  rfl

theorem threePlaces_fixedThree (x : Float) : ThreePlaces x (fixedThree x) := by
  cases unpacked : x.toModel.unpack with
  | notANumber =>
    have nan := isNaN_of_notANumber unpacked
    unfold fixedThree
    rw [nan]
    exact .notANumber unpacked
  | infinity s =>
    rw [fixedThree_of_infinity unpacked]
    exact .infinite unpacked
  | zero | finite =>
    have finite : x.isFinite = true := by
      change x.toModel.unpack.isFinite = true
      rw [unpacked]
      rfl
    rw [fixedThree_of_isFinite finite]
    exact .finite (hasSize_significand finite) (thousandths_eq x)

end Stagecraft
