import Stagecraft.Decimal.Layout

/-!
This module contains the numbers of documents. A number keeps the way it was written: whole numbers
of 64 bits stay exact, everything else is a double, and no number is infinite.
-/

namespace Stagecraft

/--
The integers that stay exact: those of 64 bits, with or without a sign.
-/
def IsExact (n : Int) : Prop := -9223372036854775808 ≤ n ∧ n ≤ 18446744073709551615

instance (n : Int) : Decidable (IsExact n) := inferInstanceAs (Decidable (_ ∧ _))

/--
A number in a document.
-/
inductive Number where
  | integer (value : Int) (exact : IsExact value)
  | real (value : Float) (finite : value.isFinite = true)

namespace Number

def floatOfInt (n : Int) : Float :=
  let size := Float.ofNat n.natAbs
  if n < 0 then -size else size

def toFloat : Number → Float
  | integer n _ => floatOfInt n
  | real x _ => x

/--
The value of a whole number that is not negative. A double is never taken for one.
-/
def toIndex? : Number → Option UInt64
  | integer n _ => if n < 0 then none else some (UInt64.ofNat n.toNat)
  | real .. => none

def ofIndex (n : UInt64) : Number :=
  .integer n.toNat ⟨by omega, by have := n.toNat_lt; omega⟩

/--
Doubles in documents are written without an exponent from `0.00001` up to sixteen digits; a whole
one keeps its point.
-/
def layout : Layout where
  positional e := -5 ≤ e && e ≤ 15
  whole := ".0"
  plus := "+"
  tie := .even

def text : Number → String
  | integer n _ => toString n
  | real x _ => layout.text x

end Number

end Stagecraft
