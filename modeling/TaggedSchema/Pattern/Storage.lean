import TaggedSchema.Pattern.Expression

/-!
# How much a pattern holds

A pattern is refused when the machine that would run it over bytes takes more than ten mebibytes
(`Expression.isTooLarge`). The size of that machine is a sum over the tree (`Expression.storage`):
counted repetition repeats its body, and a set of characters is spelled out as sequences of ranges
of bytes in UTF-8, of which equal ends (reading forward) or equal beginnings (reading backward) are
stored once.

The bytes behind a leading byte are digits in base 64. So a set of characters whose encodings have a
common leading byte is a set of numbers of one, two or three such digits, and what stands behind a
digit is again such a set, with one digit less (`behindDigits`).
-/

namespace TaggedSchema

/-! ## 1. Sets of digits -/

/-- A range of numbers by their first digits: each first digit, or run of first digits behind which
    all numbers follow, with the range of the numbers that follow. `unit` is the number of numbers
    behind a digit. -/
def digitRuns (unit : Nat) : Text.Range → List (Nat × Text.Range)
  | (low, high) =>
    let first := low / unit
    let last := high / unit
    let whole := (0, unit - 1)
    if first = last then [(first, (low % unit, high % unit))]
    else
      let fromLow := if low % unit = 0 then [] else [(first, (low % unit, unit - 1))]
      let toHigh := if high % unit = unit - 1 then [] else [(last, (0, high % unit))]
      let start := if low % unit = 0 then first else first + 1
      let stop := if high % unit = unit - 1 then last + 1 else last
      fromLow ++ (if start < stop then [(start, whole)] else []) ++ toHigh

/-- Joins what follows on the same first digit. -/
def joinRuns : List (Nat × Text.Range) → List (Nat × List Text.Range)
  | [] => []
  | (digit, range) :: rest =>
    match joinRuns rest with
    | (next, ranges) :: more =>
      if digit = next then (digit, range :: ranges) :: more
      else (digit, [range]) :: (next, ranges) :: more
    | [] => [(digit, [range])]

/-- The sets of numbers behind the first digits of a set of numbers, one for each first digit or run
    of first digits. -/
def behindDigits (unit : Nat) (set : List Text.Range) : List (List Text.Range) :=
  (joinRuns (set.flatMap (digitRuns unit))).map (·.2)

/-- The part of a set between two numbers. -/
def part (low high : Nat) (set : List Text.Range) : List Text.Range :=
  set.filterMap fun r =>
    if max low r.1 ≤ min high r.2 then some (max low r.1, min high r.2) else none

/-- The code points of the surrogates, which have no encoding. -/
def withoutEncoding : List Text.Range := [(0xD800, 0xDFFF)]

/-- What follows on leading bytes of characters of one, two, three and four bytes. -/
def behindLead (count : Nat) (set : List Text.Range) : List (List Text.Range) :=
  let (low, high) : Text.Range :=
    match count with
    | 0 => (0, 0x7F)
    | 1 => (0x80, 0x7FF)
    | 2 => (0x800, 0xFFFF)
    | _ => (0x10000, 0x10FFFF)
  if count = 0 then (part low high set).map fun _ => []
  else behindDigits (64 ^ count) (part low high set)

/-! ## 2. Sets of characters -/

/-- The bytes that a state takes. -/
def stateSize : Nat := 32

/-- The bytes that a transition of a state takes. -/
def transitionSize : Nat := 8

/-- The bytes that a reference to a state takes. -/
def referenceSize : Nat := 4

/-- The sum of sizes. -/
def total (sizes : List Nat) : Nat := sizes.foldr (· + ·) 0

/-- The size of the states behind the leading bytes of a set of characters: one for each set of
    numbers. The sets of a number of digits are those behind the digits of longer ones and those
    behind leading bytes. -/
def endsSize (set : List Text.Range) : Nat → List (List Text.Range) → Nat
  | 0, _ => 0
  | count + 1, sets =>
    let behind := (sets ++ behindLead (count + 1) set).eraseDups.map (behindDigits (64 ^ count))
    total (behind.map fun list => stateSize + transitionSize * list.length)
      + endsSize set count behind.flatten

/-- The number of sequences of digit ranges that spell a set of numbers, and the number of the
    different beginnings of these. -/
def spellings : Nat → List Text.Range → Nat × Nat
  | 0, _ => (1, 0)
  | count + 1, set =>
    let behind := (behindDigits (64 ^ count) set).map (spellings count)
    (total (behind.map (·.1)), total (behind.map fun s => s.2 + 1))

/-- The size of a set of characters that is read forward: one state for the end, one for the
    leading bytes, and those behind these. -/
def forwardSetSize (set : List Text.Range) : Nat :=
  let leads := total ((List.range 4).map fun count => (behindLead count set).length)
  2 * stateSize + transitionSize * leads + endsSize set 3 []

/-- The size of a set of characters that is read backward: a choice among its sequences, one state
    for the end, and one for each beginning. -/
def backwardSetSize (set : List Text.Range) : Nat :=
  let spelled := (List.range 4).flatMap fun count =>
    (behindLead count set).map (spellings count)
  2 * stateSize + referenceSize * total (spelled.map (·.1))
    + stateSize * total (spelled.map fun s => s.2 + 1)

/-- The size of a set of characters. One character is spelled by its bytes, and a set within ASCII
    has one state for its ranges and one for the end. -/
def setSize (backward : Bool) (chars : List Text.Range) : Nat :=
  let set := Text.difference chars withoutEncoding
  match set with
  | [(low, high)] =>
    if low = high then stateSize * (Char.ofNat low).utf8Size else sizeOfRanges set
  | set => sizeOfRanges set
where
  /-- The size of a set that is not of one character. -/
  sizeOfRanges (set : List Text.Range) : Nat :=
    if set.all fun r => r.2 < 0x80 then 2 * stateSize + transitionSize * set.length
    else if backward then backwardSetSize set
    else forwardSetSize set

/-! ## 3. Expressions -/

namespace Expression

/-- The size of some repetitions of what has a size: `least` copies, and one for each further
    repetition, or one that leads back to itself. -/
def repeatedSize (size : Nat) (canBeEmpty : Bool) (least : Nat) : Option Nat → Nat
  | none =>
    let loop := size + stateSize + 2 * referenceSize
    if least = 0 then
      if canBeEmpty then loop + 2 * stateSize + 2 * referenceSize else loop
    else (least - 1) * size + loop
  | some most =>
    let choice := size + stateSize + 2 * referenceSize
    if least = most then least * size
    else if least = 0 ∧ most = 1 then choice + stateSize
    else (if least = 0 then stateSize else least * size) + stateSize + (most - least) * choice

/-- Whether the expression matches the empty text somewhere. -/
def canBeEmpty : Expression → Bool
  | empty => true
  | set _ => false
  | anchor _ => true
  | sequence a b => a.canBeEmpty && b.canBeEmpty
  | either a b => a.canBeEmpty || b.canBeEmpty
  | repeated e least _ => least == 0 || e.canBeEmpty
  | captured e => e.canBeEmpty

/-- The size of the machine for an expression. Backward it keeps no groups. `inChoice` holds for
    an alternative among others: each of these is referred to, and all of them begin and end in the
    states of one choice. -/
def storage (backward : Bool) : Expression → Bool → Nat
  | either a b, inChoice =>
    (if inChoice then 0 else 2 * stateSize) + a.storage backward true + b.storage backward true
  | empty, inChoice => own inChoice stateSize
  | set chars, inChoice => own inChoice (setSize backward chars)
  | anchor _, inChoice => own inChoice stateSize
  | sequence a b, inChoice => own inChoice (a.storage backward false + b.storage backward false)
  | repeated e least most, inChoice =>
    own inChoice (repeatedSize (e.storage backward false) e.canBeEmpty least most)
  | captured e, inChoice =>
    own inChoice (e.storage backward false + if backward then 0 else 2 * stateSize)
where
  /-- A size, with the reference to it among alternatives. -/
  own (inChoice : Bool) (size : Nat) : Nat := if inChoice then referenceSize + size else size

/-- The size of what surrounds an expression: the search for its start, and its end; forward also
    the group of the whole match. -/
def surroundingStorage (backward : Bool) : Nat :=
  4 * stateSize + 2 * transitionSize + if backward then 0 else 2 * stateSize

/-- Ten mebibytes. -/
def storageLimit : Nat := 10 * 2 ^ 20

/-- Whether the machine for the expression, forward or backward, passes the limit. -/
def isTooLarge (e : Expression) : Bool :=
  [false, true].any fun backward =>
    storageLimit < surroundingStorage backward + e.storage backward false

end Expression

end TaggedSchema
