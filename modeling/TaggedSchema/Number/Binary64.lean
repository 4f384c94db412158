/-!
# Finite binary64 numbers, exactly

A finite binary64 number is `± significand · 2 ^ exponent` with at most 53 significant bits. This
file fixes that form, its one rounding step, and the arithmetic the keywords need:

* every finite number is a whole multiple of `2 ^ (-1074)`; `Binary64.units` is that multiple, an
  `Int`, and order, equality and integrality are read off it;
* `Binary64.round?` takes a quotient of natural numbers to the nearest binary64 number, ties to the
  even significand, and answers `none` past the largest finite number;
* products, quotients and integers are rounded by that one function.

No hardware arithmetic is used, so every equation here can be checked by computation.
-/

namespace TaggedSchema

/-- A power is the one of the core library, also in a file that imports an algebra library with
    powers of its own. So `2 ^ 53` is the same term everywhere. -/
@[default_instance 20000]
instance (priority := 20000) corePow {α : Type} [NatPow α] : Pow α Nat := instPowNat

/-- A finite binary64 number `± significand · 2 ^ exponent`. The significand has its full 53 bits
    unless the exponent is already the least one, so each number has one form (two for zero: the
    sign of zero is kept). -/
structure Binary64 where
  negative : Bool
  significand : Nat
  exponent : Int
  significand_lt : significand < 2 ^ 53
  le_exponent : -1074 ≤ exponent
  exponent_le : exponent ≤ 971
  full : 2 ^ 52 ≤ significand ∨ exponent = -1074
deriving DecidableEq

namespace Binary64

/-! ## 1. The value -/

/-- The number of units `2 ^ (-1074)` in one. -/
def unitsPerOne : Nat := 2 ^ 1074

/-- The magnitude in units of `2 ^ (-1074)`. -/
def magnitude (x : Binary64) : Nat := x.significand * 2 ^ (x.exponent + 1074).toNat

/-- The value in units of `2 ^ (-1074)`: an exact integer for every finite number. -/
def units (x : Binary64) : Int := if x.negative then -(x.magnitude : Int) else x.magnitude

/-- Positive zero. -/
def zero : Binary64 := ⟨false, 0, -1074, by decide, by decide, by decide, by decide⟩

/-- The number with the other sign. -/
def neg (x : Binary64) : Binary64 := { x with negative := !x.negative }

/-- Numerical equality; the two zeros are equal. -/
def sameValue (x y : Binary64) : Bool := x.units == y.units

/-- The exact integer a number is, if it is one. -/
def toInt? (x : Binary64) : Option Int :=
  if x.units % unitsPerOne = 0 then some (x.units / unitsPerOne) else none

/-- Whether the fractional part is zero. -/
def isIntegral (x : Binary64) : Bool := x.toInt?.isSome

/-! ## 2. Rounding -/

/-- `num / den` to the nearest natural number, a half to the even one. -/
def roundHalfEven (num den : Nat) : Nat :=
  let quotient := num / den
  let rest := num % den
  if 2 * rest < den then quotient
  else if den < 2 * rest then quotient + 1
  else quotient + quotient % 2

/-- The number with these parts, if they are in range and in the one form. -/
def ofParts? (negative : Bool) (significand : Nat) (exponent : Int) : Option Binary64 :=
  if h : significand < 2 ^ 53 ∧ -1074 ≤ exponent ∧ exponent ≤ 971 ∧
      (2 ^ 52 ≤ significand ∨ exponent = -1074) then
    some ⟨negative, significand, exponent, h.1, h.2.1, h.2.2.1, h.2.2.2⟩
  else none

/-- The exponent of the highest binary digit of `num / den`, for positive `num` and `den`. -/
def leadingExponent (num den : Nat) : Int :=
  let guess : Int := (num.log2 : Int) - (den.log2 : Int)
  if den * 2 ^ guess.toNat ≤ num * 2 ^ (-guess).toNat then guess else guess - 1

/-- The binary64 number nearest to `± num / den`, ties to the even significand; `none` if that is
    past the largest finite number. -/
def round? (negative : Bool) (num den : Nat) : Option Binary64 :=
  if num = 0 then some { zero with negative }
  else
    let exponent := max (leadingExponent num den - 52) (-1074)
    let significand := roundHalfEven (num * 2 ^ (-exponent).toNat) (den * 2 ^ exponent.toNat)
    if significand = 2 ^ 53 then ofParts? negative (2 ^ 52) (exponent + 1)
    else ofParts? negative significand exponent

/-! ## 3. Arithmetic -/

/-- The nearest binary64 number to a natural number, for numbers well below the largest finite
    one. -/
def ofNat (n : Nat) : Binary64 := (round? false n 1).getD zero

/-- The nearest binary64 number to an integer, for integers well below the largest finite number. -/
def ofInt (n : Int) : Binary64 := (round? (n < 0) n.natAbs 1).getD zero

/-- The rounded product, `none` on overflow. -/
def mul? (x y : Binary64) : Option Binary64 :=
  round? (x.negative != y.negative) (x.magnitude * y.magnitude) (unitsPerOne * unitsPerOne)

/-- The rounded quotient by a number other than zero, `none` on overflow. -/
def div? (x y : Binary64) : Option Binary64 :=
  round? (x.negative != y.negative) x.magnitude y.magnitude

/-- What is left of a number without its fraction, as a natural number of 64 bits; a number out of
    their range becomes the nearer end of it. -/
def clamp64 (x : Binary64) : Nat := min (x.units / unitsPerOne).toNat (2 ^ 64 - 1)

/-- The distance to the nearest integer, in units. -/
def distanceToInt (x : Binary64) : Nat :=
  let rest := x.magnitude % unitsPerOne
  min rest (unitsPerOne - rest)

end Binary64

end TaggedSchema
