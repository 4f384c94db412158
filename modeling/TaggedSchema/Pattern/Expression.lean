import TaggedSchema.Number.Binary64
import TaggedSchema.Text.Range

/-!
# Regular expressions

A regular expression is a tree of sets of characters, conditions on a place, sequences,
alternatives, repetitions and groups. It is searched anywhere in a text (`Expression.isMatch`). For
this the sets and conditions of the tree are replaced by the places of the text where they hold
(`Expression.locate`); then, from the set of places where a match may begin, each part of the tree
leads to the set of places where it may end (`Located.ends`), so no choice is ever taken back. Sets
of places are kept as the bits of a natural number.
-/

namespace TaggedSchema

/-! ## 1. Trees -/

/-- A condition on a place between characters. -/
inductive Anchor where
  | textStart
  | textEnd
  | lineStart (carriageReturn : Bool)
  | lineEnd (carriageReturn : Bool)
  | wordBoundary (word : List Text.Range)
  | noWordBoundary (word : List Text.Range)
  | wordStart (word : List Text.Range)
  | wordEnd (word : List Text.Range)
  | wordStartHalf (word : List Text.Range)
  | wordEndHalf (word : List Text.Range)

/-- A regular expression. -/
inductive Expression where
  | empty
  | set (chars : List Text.Range)
  | anchor (condition : Anchor)
  | sequence (a b : Expression)
  | either (a b : Expression)
  | repeated (e : Expression) (least : Nat) (most : Option Nat)
  /-- A group that could be referred to by number or name. -/
  | captured (e : Expression)

/-! ## 2. Sets of places -/

/-- A number in two parts: `word` holds its `size` lowest bits, which are few, and `high` the
    others. So a bit is added below the lowest without moving all the others each time. -/
structure Bits where
  high : Nat
  word : Nat
  size : Nat

/-- The number. -/
def Bits.value (bits : Bits) : Nat := bits.high * 2 ^ bits.size + bits.word

/-- The bits with one more, which becomes the lowest. -/
def Bits.push (flag : Bool) (bits : Bits) : Bits :=
  let word := 2 * bits.word + flag.toNat
  if bits.size < 31 then ⟨bits.high, word, bits.size + 1⟩
  else ⟨bits.high * 2 ^ (bits.size + 1) + word, 0, 0⟩

/-- The set of the places for which a list holds `true`. -/
def placesOf (flags : List Bool) : Nat := (flags.foldr Bits.push ⟨0, 0, 0⟩).value

/-- The places of a text, from before its first character to behind its last, each with the
    characters at its sides. -/
def surroundings (before : Option Char) : List Char → List (Option Char × Option Char)
  | [] => [(before, none)]
  | c :: rest => (before, some c) :: surroundings (some c) rest

/-- Whether the condition holds between two characters. -/
def Anchor.holds (before after : Option Char) : Anchor → Bool
  | textStart => before.isNone
  | textEnd => after.isNone
  | lineStart crlf =>
    match before with
    | none => true
    | some '\n' => true
    | some '\r' => crlf && after != some '\n'
    | some _ => false
  | lineEnd crlf =>
    match after with
    | none => true
    | some '\n' => !(crlf && before == some '\r')
    | some '\r' => crlf
    | some _ => false
  | wordBoundary word => isWord word before != isWord word after
  | noWordBoundary word => isWord word before == isWord word after
  | wordStart word => !isWord word before && isWord word after
  | wordEnd word => isWord word before && !isWord word after
  | wordStartHalf word => !isWord word before
  | wordEndHalf word => !isWord word after
where
  /-- Whether there is a word character. -/
  isWord (word : List Text.Range) (c : Option Char) : Bool :=
    c.any fun c => Text.inRanges word c.toNat

/-! ## 3. Matching -/

/-- An expression over the places of one text. -/
inductive Located where
  /-- Goes on at the same place, if it is one of these. -/
  | stay (places : Nat)
  /-- Goes on behind the next character, if the place before it is one of these. -/
  | step (places : Nat)
  | sequence (a b : Located)
  | either (a b : Located)
  | repeated (e : Located) (least : Nat) (most : Option Nat)

/-- The sets of an expression. -/
def Expression.sets : Expression → List (List Text.Range)
  | empty => []
  | set chars => [chars]
  | anchor _ => []
  | sequence a b => a.sets ++ b.sets
  | either a b => a.sets ++ b.sets
  | repeated e _ _ => e.sets
  | captured e => e.sets

/-- The places of a text before a character of a set. -/
def placesBefore (text : List Char) (chars : List Text.Range) : Nat :=
  placesOf (text.map fun c => Text.inRanges chars c.toNat)

/-- The places of a text where a condition holds. -/
def Anchor.places (text : List Char) (condition : Anchor) : Nat :=
  placesOf ((surroundings none text).map fun (before, after) => condition.holds before after)

/-- All places of a text. -/
def allPlaces (text : List Char) : Nat := placesOf ((surroundings none text).map fun _ => true)

/-- The expression over the places of a text. `known` holds the places before the characters of each
    set, which an expression may name many times. -/
def Expression.locate (text : List Char) (known : List (List Text.Range × Nat)) :
    Expression → Located
  | empty => .stay (allPlaces text)
  | set chars => .step ((known.lookup chars).getD 0)
  | anchor condition => .stay (condition.places text)
  | sequence a b => .sequence (a.locate text known) (b.locate text known)
  | either a b => .either (a.locate text known) (b.locate text known)
  | repeated e least most => .repeated (e.locate text known) least most
  | captured e => e.locate text known

namespace Located

/-- Repeats a step a number of times, until it changes nothing. -/
def times (step : Nat → Nat) : Nat → Nat → Nat
  | 0, places => places
  | n + 1, places =>
    let next := step places
    if next = places then places else times step n next

/-- Adds what a step leads to, up to a number of times, until nothing is added. `fresh` are those of
    the places that the last step added. -/
def upTo (step : Nat → Nat) : Nat → Nat → Nat → Nat
  | 0, places, _ => places
  | n + 1, places, fresh =>
    let reached := step fresh
    let fresh := reached ^^^ (reached &&& places)
    if fresh = 0 then places else upTo step n (places ||| fresh) fresh

/-- The places where a match may end that begins at one of the given places, in a text of a
    length. -/
def ends (length : Nat) : Located → Nat → Nat
  | stay allowed, places => places &&& allowed
  | step allowed, places => (places &&& allowed) <<< 1
  | sequence a b, places => b.ends length (a.ends length places)
  | either a b, places => a.ends length places ||| b.ends length places
  | repeated e least most, places =>
    let places := times (e.ends length) least places
    match most with
    | some most => upTo (e.ends length) (most - least) places places
    | none => upTo (e.ends length) (length + 1) places places

end Located

/-- Whether the expression matches somewhere in a text. -/
def Expression.isMatch (e : Expression) (text : String) : Bool :=
  let chars := text.toList
  let known := e.sets.eraseDups.map fun set => (set, placesBefore chars set)
  (e.locate chars known).ends chars.length (allPlaces chars) != 0

/-! ## 4. Trees in least form -/

namespace Expression

/-- Whether the expression matches nothing but the empty text. -/
def isWidthless : Expression → Bool
  | empty => true
  | set _ => false
  | anchor _ => true
  | sequence a b => a.isWidthless && b.isWidthless
  | either a b => a.isWidthless && b.isWidthless
  | repeated e _ _ => e.isWidthless
  | captured e => e.isWidthless

/-- Two expressions one after the other; the empty one is left out. -/
def followedBy : Expression → Expression → Expression
  | empty, b => b
  | a, empty => a
  | a, b => .sequence a b

/-- An expression repeated. What has no width need not be repeated more than once; one time is the
    expression itself, and no time is the empty one. -/
def times (e : Expression) (least : Nat) (most : Option Nat) : Expression :=
  let (least, most) :=
    if e.isWidthless then (min least 1, some (min (most.getD 1) 1)) else (least, most)
  if most = some 0 then .empty
  else if least = 1 ∧ most = some 1 then e
  else .repeated e least most

/-- The alternatives of an expression. -/
def branches : Expression → List Expression
  | either a b => a.branches ++ b.branches
  | e => [e]

/-- Whether a set is of one character. -/
def isSingle : List Text.Range → Bool
  | [(low, high)] => low == high
  | _ => false

/-- The sets of some expressions, if all of them are sets, and either all or none of these are of
    one character. -/
def sets? (list : List Expression) : Option (List (List Text.Range)) := do
  let sets ← list.mapM fun
    | set chars => some chars
    | _ => none
  if sets.all isSingle || sets.all (!isSingle ·) then some sets else none

/-- One of some expressions, the first of them apart. -/
def oneOfFrom (first : Expression) : List Expression → Expression
  | [] => first
  | second :: more => .either first (oneOfFrom second more)

/-- One of some expressions; several sets are one. -/
def oneOf (list : List Expression) : Expression :=
  match list.flatMap branches with
  | [] => .set []
  | [e] => e
  | first :: more =>
    match sets? (first :: more) with
    | some sets => .set (Text.unions sets)
    | none => oneOfFrom first more

end Expression

end TaggedSchema
