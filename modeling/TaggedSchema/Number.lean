import TaggedSchema.Number.Decimal

/-!
# JSON numbers

A number of a JSON document is an integer of 64 bits, signed or unsigned, or a finite binary64
number. `Number.sameValue` is the equality of `const`, `enum` and `uniqueItems`: integers are
compared exactly, and an integer and a float as binary64 numbers.
-/

namespace TaggedSchema

/-- The integers a 64-bit word can hold, signed or unsigned. -/
def Fits64 (n : Int) : Prop := -2 ^ 63 ≤ n ∧ n < 2 ^ 64

instance (n : Int) : Decidable (Fits64 n) := inferInstanceAs (Decidable (_ ∧ _))

/-- A number as a document holds it. -/
inductive Number where
  | int (value : Int) (fits : Fits64 value)
  | float (value : Binary64)
deriving DecidableEq

namespace Number

/-- The integer as a number, if 64 bits hold it. -/
def ofInt? (n : Int) : Option Number := if h : Fits64 n then some (.int n h) else none

/-- A natural number as a number: the integer, or past 64 bits the nearest binary64 number. -/
def ofNat (n : Nat) : Number := (ofInt? n).getD (.float (.ofNat n))

/-- The integer, if it is one of the signed 64-bit range. -/
def signed? : Number → Option Int
  | .int n _ => if n < 2 ^ 63 then some n else none
  | .float _ => none

/-- The integer, if it is one and not negative. -/
def unsigned? : Number → Option Nat
  | .int n _ => if 0 ≤ n then some n.toNat else none
  | .float _ => none

/-- The nearest binary64 number. -/
def toBinary64 : Number → Binary64
  | .int n _ => .ofInt n
  | .float x => x

/-- The exact integer the number is, in either representation. -/
def toInt? : Number → Option Int
  | .int n _ => some n
  | .float x => x.toInt?

/-- Whether the number is an integer, in either representation. -/
def isIntegral (n : Number) : Bool := n.toInt?.isSome

/-- Two integers are equal when they are the same integer; any other two numbers when their binary64
    numbers have one value. -/
def sameValue : Number → Number → Bool
  | .int a _, .int b _ => a == b
  | a, b => a.toBinary64.sameValue b.toBinary64

/-- JSON text. -/
def text : Number → String
  | .int n _ => if n < 0 then "-" ++ Nat.repr n.natAbs else Nat.repr n.natAbs
  | .float x => x.text

end Number

end TaggedSchema
