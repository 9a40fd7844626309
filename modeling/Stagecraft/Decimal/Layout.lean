import Stagecraft.Decimal.Basic

/-!
This module contains the written forms of doubles. A `Layout` holds the choices in which the forms
differ that show the shortest digits; `fixedThree` is the form with three places.
-/

namespace Stagecraft

/--
How the shortest digits of a double are written.
-/
structure Layout where
  /--
  The decimal exponents of the numbers that are written without an exponent.
  -/
  positional : Int → Bool
  /--
  What follows a number without a fraction.
  -/
  whole : String
  /--
  The sign in front of an exponent that is not negative.
  -/
  plus : String
  /--
  Which digits are taken if two choices are equally near.
  -/
  tie : Tie

def zeros (n : Nat) : String := String.ofList (List.replicate n '0')

namespace Layout

/--
The digits of a number with the point after the first `point` of them.
-/
def position (l : Layout) (digits : List Char) (point : Int) : String :=
  if point ≤ 0 then
    "0." ++ zeros (-point).toNat ++ String.ofList digits
  else if digits.length ≤ point.toNat then
    String.ofList digits ++ zeros (point.toNat - digits.length) ++ l.whole
  else
    String.ofList (digits.take point.toNat) ++ "." ++ String.ofList (digits.drop point.toNat)

def scale (l : Layout) (digits : List Char) (exponent : Int) : String :=
  let fraction := if digits.length ≤ 1 then "" else "." ++ String.ofList (digits.drop 1)
  let sign := if exponent < 0 then "-" else l.plus
  String.ofList (digits.take 1) ++ fraction ++ "e" ++ sign ++ toString exponent.natAbs

def decimal (l : Layout) (d : Decimal) : String :=
  let digits := Nat.toDigits 10 d.coefficient
  let exponent := d.exponent + digits.length - 1
  if l.positional exponent then l.position digits (exponent + 1) else l.scale digits exponent

def text (l : Layout) (x : Float) : String :=
  if x.isNaN then
    "NaN"
  else
    let size := if x.isInf then "inf" else l.decimal (Decimal.shortest l.tie x)
    if isNegative x then "-" ++ size else size

end Layout

def fixedThree (x : Float) : String :=
  if x.isNaN then
    "NaN"
  else
    let size :=
      if x.isInf then
        "inf"
      else
        let units := thousandths x
        let places := toString (units % 1000)
        toString (units / 1000) ++ "." ++ zeros (3 - places.length) ++ places
    if isNegative x then "-" ++ size else size

end Stagecraft
