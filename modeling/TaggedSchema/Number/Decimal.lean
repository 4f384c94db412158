import TaggedSchema.Number.Binary64

/-!
# Decimal text of binary64 numbers

Writing: the fewest decimal digits that read back as the same number and, of those, the ones
nearest to it (`Decimal.shortest`), laid out by one record of format decisions
(`Decimal.Layout`). Reading: a decimal `significand · 10 ^ exponent` either to the nearest binary64
number (`Binary64.nearestDecimal?`), or by scaling the rounded significand with one rounded power of
ten (`Binary64.scaledDecimal?`), which is how the text of a JSON document is read.
-/

namespace TaggedSchema

/-! ## 1. Shortest digits -/

/-- A positive decimal `digits · 10 ^ exponent`. -/
structure Decimal where
  digits : Nat
  exponent : Int
deriving DecidableEq

namespace Decimal

/-- The magnitudes that round to a number, in quarter units: both ends, and whether they belong. -/
structure Interval where
  low : Nat
  centre : Nat
  high : Nat
  closed : Bool

/-- The rounding interval of a number other than zero. Below a power of two the neighbours lie half
    as far as above it. -/
def interval (x : Binary64) : Interval :=
  let ulp := 2 ^ (x.exponent + 1074).toNat
  let centre := 4 * x.magnitude
  let below := if x.significand = 2 ^ 52 ∧ -1074 < x.exponent then ulp else 2 * ulp
  { low := centre - below, centre, high := centre + 2 * ulp, closed := x.significand % 2 = 0 }

/-- Whether `d · 10 ^ exponent` lies in the interval. -/
def Interval.contains (i : Interval) (d : Nat) (exponent : Int) : Bool :=
  let value := d * 10 ^ exponent.toNat * (4 * Binary64.unitsPerOne)
  let scale := 10 ^ (-exponent).toNat
  if i.closed then i.low * scale ≤ value && value ≤ i.high * scale
  else i.low * scale < value && value < i.high * scale

/-- The number of decimal digits of a natural number (1 for zero). -/
def digitCount (n : Nat) : Nat := (Nat.toDigits 10 n).length

/-- The exponent of the first decimal digit of `num / den`, for positive `num` and `den`. -/
def leadingExponent (num den : Nat) : Int :=
  let guess : Int := (digitCount num : Int) - (digitCount den : Int)
  if den * 10 ^ guess.toNat ≤ num * 10 ^ (-guess).toNat then guess else guess - 1

/-- The decimal of the grid `10 ^ exponent` that reads back, the nearer of the two around the
    number if both do. -/
def onGrid? (i : Interval) (exponent : Int) : Option Decimal :=
  let num := i.centre * 10 ^ (-exponent).toNat
  let den := 4 * Binary64.unitsPerOne * 10 ^ exponent.toNat
  let below := num / den
  let rest := num % den
  let nearer := if 2 * rest < den ∨ (2 * rest = den ∧ below % 2 = 0) then below else below + 1
  let other := if nearer = below then below + 1 else below
  if nearer ≠ 0 && i.contains nearer exponent then some ⟨nearer, exponent⟩
  else if other ≠ 0 && i.contains other exponent then some ⟨other, exponent⟩
  else none

/-- Tries the grids from `exponent` downwards. -/
def firstGrid (i : Interval) : Nat → Int → Decimal
  | 0, exponent => (onGrid? i exponent).getD ⟨0, 0⟩
  | more + 1, exponent =>
    match onGrid? i exponent with
    | some d => d
    | none => firstGrid i more (exponent - 1)

/-- The decimal of fewest digits that reads back as the number; 17 digits always do. -/
def shortest (x : Binary64) : Decimal :=
  let i := interval x
  firstGrid i 17 (leadingExponent i.centre (4 * Binary64.unitsPerOne) + 1)

/-! ## 2. Layout -/

/-- The decisions of a number format: the decimal exponents written positionally, and what stands
    between digits and exponent elsewhere. -/
structure Layout where
  leastPositional : Int
  greatestPositional : Int
  exponentMark : String
  positiveSign : String

/-- JSON text: positional from `1e-5` up to `1e15`, with `.0` where the number is integral, and
    `e+16`, `e-7` elsewhere. -/
def Layout.json : Layout := ⟨-5, 15, "e", "+"⟩

/-- `n` zeros. -/
def zeros (n : Nat) : String := String.ofList (List.replicate n '0')

/-- The text of a positive decimal. -/
def text (layout : Layout) (d : Decimal) : String :=
  let digits := Nat.toDigits 10 d.digits
  let leading : Int := digits.length + d.exponent - 1
  if layout.leastPositional ≤ leading ∧ leading ≤ layout.greatestPositional then
    if 0 ≤ d.exponent then String.ofList digits ++ zeros d.exponent.toNat ++ ".0"
    else if 0 ≤ leading then
      let split := leading.toNat + 1
      String.ofList (digits.take split) ++ "." ++ String.ofList (digits.drop split)
    else "0." ++ zeros (-leading - 1).toNat ++ String.ofList digits
  else
    let mantissa := match digits with
      | [] => ""
      | [d] => String.ofList [d]
      | d :: rest => String.ofList (d :: '.' :: rest)
    let sign := if leading < 0 then "-" else layout.positiveSign
    mantissa ++ layout.exponentMark ++ sign ++ Nat.repr leading.natAbs

end Decimal

/-- The shortest text that reads back as the number. -/
def Binary64.text (x : Binary64) : String :=
  let magnitude := if x.significand = 0 then "0.0" else (Decimal.shortest x).text .json
  if x.negative then "-" ++ magnitude else magnitude

/-! ## 3. Reading decimals -/

/-- The binary64 number nearest to `± significand · 10 ^ exponent`. -/
def Binary64.nearestDecimal? (negative : Bool) (significand : Nat) (exponent : Int) :
    Option Binary64 :=
  round? negative (significand * 10 ^ exponent.toNat) (10 ^ (-exponent).toNat)

/-- The greatest power of ten that is a finite binary64 number. -/
def Binary64.greatestPower : Nat := 308

/-- The rounded power of ten, for exponents up to the greatest. -/
def Binary64.powerOfTen (exponent : Nat) : Binary64 := ofNat (10 ^ exponent)

/-- `x · 10 ^ (-exponent)`, dividing by the greatest power of ten until the rest is in reach. Four
    rounds take every 64-bit significand to zero. -/
def Binary64.scaleDown? : Nat → Binary64 → Nat → Option Binary64
  | 0, x, _ => some x
  | rounds + 1, x, exponent =>
    if exponent ≤ greatestPower then x.div? (powerOfTen exponent)
    else if x.significand = 0 then some x
    else
      match x.div? (powerOfTen greatestPower) with
      | some y => scaleDown? rounds y (exponent - greatestPower)
      | none => none

/-- `± significand · 10 ^ exponent`, where the significand is rounded first and then multiplied or
    divided by a rounded power of ten, with one more rounding. It is exact up to 15 digits and
    `10 ^ 22`; beyond, the last bit may differ from the nearest number. `none` on overflow. -/
def Binary64.scaledDecimal? (negative : Bool) (significand : Nat) (exponent : Int) :
    Option Binary64 :=
  let x := ofNat significand
  let scaled :=
    if exponent < 0 then scaleDown? 4 x exponent.natAbs
    else if exponent.toNat ≤ greatestPower then x.mul? (powerOfTen exponent.toNat)
    else if significand = 0 then some x
    else none
  scaled.map fun y => if negative then y.neg else y

end TaggedSchema
