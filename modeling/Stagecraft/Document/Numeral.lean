import Stagecraft.Document.Token

/-!
This module contains the reading of numerals, one character at a time. What is kept of the digits is
a significand of 64 bits. A digit that finds no room in it is dropped with all that follow it up to
the point, or from the point on, so that a number with many digits is read as one close to it.
-/

namespace Stagecraft

namespace Lexer

/--
How far a numeral has come. A numeral may end in the phases `zero`, `whole`, `fraction` and
`exponent`.
-/
inductive Phase where
  | sign
  | zero
  | whole
  | point
  | fraction
  | mark
  | markSign
  | exponent
  deriving DecidableEq, Repr

/--
The part of a numeral that has been read: its sign, and `significand * 10 ^ shift` as far as the
digits were kept; it is `full` if the last digits were not. The power after the mark has its own
sign.
-/
structure Numeral where
  phase : Phase
  negative : Bool
  significand : Nat := 0
  shift : Int := 0
  full : Bool := false
  falling : Bool := false
  exponent : Nat := 0

def digitValue (c : Char) : Nat := c.toNat - '0'.toNat

namespace Numeral

/--
The largest significand.
-/
def capacity : Nat := 18446744073709551615

/--
The significand with another digit, if there is room for it.
-/
def grown? (n : Numeral) (c : Char) : Option Nat :=
  let significand := 10 * n.significand + digitValue c
  if n.full ∨ capacity < significand then none else some significand

def pushWhole (n : Numeral) (c : Char) : Numeral :=
  match n.grown? c with
  | some significand => { n with phase := .whole, significand }
  | none => { n with phase := .whole, full := true, shift := n.shift + 1 }

def pushFraction (n : Numeral) (c : Char) : Numeral :=
  match n.grown? c with
  | some significand => { n with phase := .fraction, significand, shift := n.shift - 1 }
  | none => { n with phase := .fraction, full := true }

def pushExponent (n : Numeral) (c : Char) : Numeral :=
  { n with phase := .exponent, exponent := 10 * n.exponent + digitValue c }

def next? (n : Numeral) (c : Char) : Option Numeral :=
  match n.phase with
  | .sign =>
    if c = '0' then some { n with phase := .zero }
    else if c.isDigit then some (n.pushWhole c)
    else none
  | .zero | .whole =>
    if c.isDigit ∧ n.phase = .whole then some (n.pushWhole c)
    -- Behind the point there may be room again, for a smaller digit.
    else if c = '.' then some { n with phase := .point, full := false }
    else if c = 'e' ∨ c = 'E' then some { n with phase := .mark }
    else none
  | .point => if c.isDigit then some (n.pushFraction c) else none
  | .fraction =>
    if c.isDigit then some (n.pushFraction c)
    else if c = 'e' ∨ c = 'E' then some { n with phase := .mark }
    else none
  | .mark =>
    if c = '+' then some { n with phase := .markSign }
    else if c = '-' then some { n with phase := .markSign, falling := true }
    else if c.isDigit then some (n.pushExponent c)
    else none
  | .markSign | .exponent => if c.isDigit then some (n.pushExponent c) else none

/--
Whether the numeral may end before `c`. A zero in front of other digits may not.
-/
def endsBefore (n : Numeral) (c : Char) : Bool :=
  match n.phase with
  | .zero => !c.isDigit
  | .whole | .fraction | .exponent => true
  | _ => false

def isComplete (n : Numeral) : Bool :=
  match n.phase with
  | .zero | .whole | .fraction | .exponent => true
  | _ => false

/--
The number without its sign, as far as the digits were kept.
-/
def decimal (n : Numeral) : Decimal where
  coefficient := n.significand
  exponent := n.shift + if n.falling then -(n.exponent : Int) else n.exponent

/--
The largest power that is worked out.
-/
def highest : Nat := 2147483647

/--
The size of the number as a double.
-/
def size (n : Numeral) : Float :=
  if n.exponent ≤ highest then
    n.decimal.evaluate
  else if n.significand = 0 ∨ n.falling then
    0
  else
    Decimal.infinity

/--
The number as a double. Where it is too large for one, only readers that ask for it fail.
-/
def real (n : Numeral) : Leaf :=
  let x := if n.negative then -n.size else n.size
  if finite : x.isFinite = true then
    .number (.real x finite)
  else
    .broken false (.malformed .numberTooLarge) none

/--
The number that a complete numeral stands for. There is no integer below zero and above minus one,
so minus zero is a double; a number of which digits were dropped is one, too.
-/
def leaf (n : Numeral) : Leaf :=
  if n.phase = .zero ∧ ¬n.negative ∨ n.phase = .whole ∧ ¬n.full then
    let value : Int := if n.negative then -(n.significand : Int) else n.significand
    if exact : IsExact value then .number (.integer value exact) else n.real
  else
    n.real

end Numeral

end Lexer

end Stagecraft
