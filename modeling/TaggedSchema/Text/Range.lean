/-!
# Sets of characters as ranges

A set of characters is a list of ranges of code points, in ascending order and with a gap between
neighbours. Union and complement keep that form; the other operations are made of these two. Tables
are written as texts of hexadecimal ranges (`rangesOf`).
-/

namespace TaggedSchema.Text

/-! ## 1. Ranges -/

/-- A range of code points, both ends included. -/
abbrev Range := Nat × Nat

/-- The greatest code point. -/
def lastCodePoint : Nat := 0x10FFFF

/-- Whether a code point lies in one of the ranges, which ascend. -/
def inRanges : List Range → Nat → Bool
  | [], _ => false
  | (low, high) :: rest, n => if n ≤ high then low ≤ n else inRanges rest n

/-! ## 2. Operations -/

/-- Ranges in ascending order of their lower ends, those that touch or overlap joined. `current` is
    the range in front so far. -/
def joinRanges (current : Range) : List Range → List Range
  | [] => [current]
  | r :: rest =>
    if r.1 ≤ current.2 + 1 then joinRanges (current.1, max current.2 r.2) rest
    else current :: joinRanges r rest

/-- The set of some ranges in ascending order of their lower ends. -/
def ofAscending : List Range → List Range
  | [] => []
  | r :: rest => joinRanges r rest

/-- The set of some ranges in any order. -/
def ofRanges (list : List Range) : List Range :=
  ofAscending (list.mergeSort fun a b => decide (a.1 ≤ b.1))

/-- The code points of two sets. -/
def union (a b : List Range) : List Range :=
  ofAscending (List.merge a b fun r s => decide (r.1 ≤ s.1))

/-- The code points from `next` on that lie in none of the ranges. -/
def gapsFrom (next : Nat) : List Range → List Range
  | [] => if next ≤ lastCodePoint then [(next, lastCodePoint)] else []
  | (low, high) :: rest =>
    if next < low then (next, low - 1) :: gapsFrom (high + 1) rest else gapsFrom (high + 1) rest

/-- The code points outside a set. -/
def complement (a : List Range) : List Range := gapsFrom 0 a

/-- The code points common to two sets. -/
def intersection (a b : List Range) : List Range :=
  complement (union (complement a) (complement b))

/-- The code points of the first set that are not in the second. -/
def difference (a b : List Range) : List Range := complement (union (complement a) b)

/-- The code points in exactly one of two sets. -/
def symmetricDifference (a b : List Range) : List Range :=
  union (difference a b) (difference b a)

/-- The code points of some sets. -/
def unions (sets : List (List Range)) : List Range := sets.foldl union []

/-! ## 3. Texts of ranges -/

/-- The value of an upper-case hexadecimal digit. -/
def rangeDigit (c : Char) : Nat :=
  if c.isDigit then c.toNat - '0'.toNat else c.toNat - 'A'.toNat + 10

/-- Reads ranges separated by blanks: `41-5A 5F` is two ranges, the second of one character. The
    arguments are the ranges so far, last first, the first end of a range whose second is being
    read, and the number so far. -/
def readRanges (done : List Range) (low : Option Nat) (n : Nat) : List Char → List Range
  | [] => ((low.getD n, n) :: done).reverse
  | c :: rest =>
    if c = ' ' then readRanges ((low.getD n, n) :: done) none 0 rest
    else if c = '-' then readRanges done (some n) 0 rest
    else readRanges done low (16 * n + rangeDigit c) rest

/-- The ranges a text spells. -/
def rangesOf (text : String) : List Range := readRanges [] none 0 text.toList

/-- The set of the ranges that some lines spell in ascending order. -/
def setOfLines (lines : List String) : List Range := ofAscending (lines.flatMap rangesOf)

end TaggedSchema.Text
