/-!
This module contains decimal numbers, how doubles are made of them and turned into them. A double is
a whole number of halvings (`numerator` over `denominator`), so each question about it is one about
natural numbers: `Decimal.shortest` finds the fewest digits that stand for it, `thousandths` rounds
to three places.
-/

namespace Stagecraft

/--
The number `coefficient * 10 ^ exponent`.
-/
structure Decimal where
  coefficient : Nat
  exponent : Int
  deriving DecidableEq, Repr

/--
Where a number goes that lies in the middle of two neighbours.
-/
inductive Tie where
  | even
  | up
  deriving DecidableEq, Repr

/--
The neighbours of `num / den` among the natural numbers, the nearer one first.
-/
def neighbours (tie : Tie) (num den : Nat) : Nat × Nat :=
  let below := num / den
  let rest := 2 * (num % den)
  if rest < den then
    (below, below + 1)
  else if den < rest then
    (below + 1, below)
  else match tie with
    | .up => (below + 1, below)
    | .even => if below % 2 = 0 then (below, below + 1) else (below + 1, below)

/--
The natural number nearest to `num / den`.
-/
def roundDiv (tie : Tie) (num den : Nat) : Nat := (neighbours tie num den).1

namespace Decimal

/--
The double nearest to a decimal number; an infinite one where the number is too large.
-/
def toFloat (d : Decimal) : Float :=
  Float.ofScientific d.coefficient (decide (d.exponent < 0)) d.exponent.natAbs

/--
The double nearest to a power of ten.
-/
def powerOfTen (e : Nat) : Float := toFloat ⟨1, e⟩

/--
What is left of a number that is divided `steps` times by `10 ^ 308`, and then by `10 ^ rest`. There
is nothing to divide if it has become zero.
-/
def lower (x : Float) : (steps rest : Nat) → Float
  | 0, rest => x / powerOfTen rest
  | steps + 1, rest => if x == 0 then x else lower (x / powerOfTen 308) steps rest

def infinity : Float := 1 / 0

/--
A decimal number as the arithmetic of doubles has it: the coefficient is multiplied with a power of
ten or divided by one, and what is not a double is rounded each time. This need not be the double
nearest to the number. It is an infinite one where a product is too large.
-/
def evaluate (d : Decimal) : Float :=
  let x := Float.ofNat d.coefficient
  if d.exponent < 0 then
    let steps := (d.exponent.natAbs - 1) / 308
    lower x steps (d.exponent.natAbs - 308 * steps)
  else if d.exponent ≤ 308 then
    x * powerOfTen d.exponent.natAbs
  else if x == 0 then
    x
  else
    infinity

end Decimal

def fractionCount : Nat := 4503599627370496

def exponentCount : Nat := 2048

/--
Whether the sign bit of a double is set. It is for `-0.0`.
-/
def isNegative (x : Float) : Bool := fractionCount * exponentCount ≤ x.toBits.toNat

def magnitude (x : Float) : Float := if isNegative x then -x else x

/--
The exponent field of a double. It is zero for those doubles that are too small to have a leading
one.
-/
def biasedExponent (x : Float) : Nat := x.toBits.toNat / fractionCount % exponentCount

/--
The significand of a finite double: its size is `significand x * 2 ^ power x`.
-/
def significand (x : Float) : Nat :=
  let fraction := x.toBits.toNat % fractionCount
  if biasedExponent x = 0 then fraction else fraction + fractionCount

def power (x : Float) : Int :=
  if biasedExponent x = 0 then -1074 else (biasedExponent x : Int) - 1075

/--
The power `base ^ e`, or one where `e` is negative.
-/
def scale (base : Nat) (e : Int) : Nat := Nat.pow base e.toNat

/--
The size of a finite double is exactly `numerator x / denominator x`.
-/
def numerator (x : Float) : Nat := significand x * scale 2 (power x)

/--
The size of a finite double is exactly `numerator x / denominator x`.
-/
def denominator (x : Float) : Nat := scale 2 (-power x)

/--
The exponent `e` with `10 ^ e ≤ num / den < 10 ^ (e + 1)`, for a positive quotient.
-/
def leadingExponent (num den : Nat) : Int :=
  if den ≤ num then
    ((Nat.toDigits 10 (num / den)).length : Int) - 1
  else
    -((Nat.toDigits 10 ((den + num - 1) / num - 1)).length : Int)

namespace Decimal

/--
All digits of a finite double. There are up to 767 of them.
-/
def exact (x : Float) : Decimal where
  coefficient := significand x * scale 2 (power x) * scale 5 (-power x)
  exponent := min (power x) 0

/--
The multiples of `10 ^ unit` below and above the size of a double, the nearer one first.
-/
def onGrid (tie : Tie) (x : Float) (unit : Int) : List Decimal :=
  let (near, far) := neighbours tie (numerator x * scale 10 (-unit)) (denominator x * scale 10 unit)
  [⟨near, unit⟩, ⟨far, unit⟩]

def short (digits : Nat) (d : Decimal) : Decimal :=
  if d.coefficient = scale 10 digits then ⟨1, d.exponent + digits⟩ else d

/--
The decimal with the fewest digits among those to which the size of `x` is the nearest double, and
of those the nearest to it. Seventeen digits are always enough.
-/
def shortest (tie : Tie) (x : Float) : Decimal :=
  if significand x = 0 then
    ⟨0, 0⟩
  else
    let leading := leadingExponent (numerator x) (denominator x)
    let found := (List.range 17).findSome? fun (n : Nat) =>
      (onGrid tie x (leading - n)).find? (·.toFloat == magnitude x) |>.map (short (n + 1))
    found.getD (exact x)

end Decimal

def thousandths (x : Float) : Nat := roundDiv .even (numerator x * 1000) (denominator x)

end Stagecraft
