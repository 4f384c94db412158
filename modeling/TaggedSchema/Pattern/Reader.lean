import TaggedSchema.Pattern
import TaggedSchema.Pattern.Bracket
import TaggedSchema.Pattern.Storage
import TaggedSchema.Text.Addition

/-!
# Reading patterns

The notation of patterns: literal characters, the dot, escapes, bracketed classes, groups with or
without a name, inline flags, alternatives, and greedy or lazy repetition, which accept the same
texts. There is no looking around and no referring back. A pattern that does not follow the notation
is refused with the rule it breaks, and so is one that is nested too deeply or takes too much space,
by an estimate of the space (`Pattern.reader`).

Each step consumes a character, so the length of the pattern bounds the recursion.
-/

namespace TaggedSchema.Pattern

/-! ## 1. Repetition -/

/-- Decimal digits in front, between the blanks and comments of a verbose pattern, and what stands
    behind these. -/
def spreadDigits (inComment : Bool) : List Char → List Char × List Char
  | [] => ([], [])
  | c :: rest =>
    if inComment then spreadDigits (c ≠ '\n') rest
    else if Text.isBlank c then spreadDigits false rest
    else if c = '#' then spreadDigits true rest
    else if c.isDigit then
      let (digits, rest) := spreadDigits false rest
      (c :: digits, rest)
    else ([], c :: rest)

/-- Decimal digits in front, with blanks around them. -/
def digitsInFront (flags : Flags) (s : List Char) : List Char × List Char :=
  if flags.verbose then spreadDigits false s
  else
    let s := s.dropWhile Text.isBlank
    (s.takeWhile Char.isDigit, (s.dropWhile Char.isDigit).dropWhile Text.isBlank)

/-- A decimal number of 32 bits; `none` if there are no digits. -/
def readDecimal (flags : Flags) (s : List Char) :
    Except PatternError (Option Nat × List Char) :=
  let (digits, rest) := digitsInFront flags s
  if digits.isEmpty then .ok (none, rest)
  else
    let n := digits.foldl (fun n c => 10 * n + (c.toNat - '0'.toNat)) 0
    if n < 2 ^ 32 then .ok (some n, rest) else .error .repetitionCount

/-- The bounds of a counted repetition after its opening brace. -/
def readBounds (flags : Flags) (s : List Char) :
    Except PatternError ((Nat × Option Nat) × List Char) :=
  let s := trimmed flags s
  if s.isEmpty then .error .repetitionUnclosed
  else do
    let (least, rest) ← readDecimal flags s
    match rest with
    | ',' :: rest =>
      match trimmed flags rest with
      | [] => .error .repetitionUnclosed
      | '\x7d' :: rest =>
        match least with
        | some least => return ((least, none), rest)
        | none => .error .repetitionCount
      | rest =>
        match least, ← readDecimal flags rest with
        | some least, (some most, '\x7d' :: rest) =>
          if least ≤ most then return ((least, some most), rest) else .error .repetitionOrder
        | some _, (some _, _) => .error .repetitionUnclosed
        | _, _ => .error .repetitionCount
    | '\x7d' :: rest =>
      match least with
      | some least => return ((least, some least), rest)
      | none => .error .repetitionCount
    | [] => .error .repetitionUnclosed
    | _ => if least.isSome then .error .repetitionUnclosed else .error .repetitionCount

/-- Drops the mark of lazy repetition. -/
def dropLazy : List Char → List Char
  | '?' :: rest => rest
  | s => s

/-! ## 2. Groups -/

/-- Flags after the opening of a group, up to a colon or the closing parenthesis. `seen` are the
    flags so far. -/
def readFlags (flags : Flags) (negated : Bool) (seen : List Char) :
    List Char → Except PatternError (Flags × List Char)
  | [] => .error .flag
  | c :: rest =>
    if c = ':' ∨ c = ')' then
      if seen.head? = some '-' then .error .flag else .ok (flags, c :: rest)
    else if seen.contains c then .error .flag
    else
      let on := !negated
      match c with
      | '-' => readFlags flags true (c :: seen) rest
      | 'i' => readFlags { flags with caseless := on } negated (c :: seen) rest
      | 'm' => readFlags { flags with multiline := on } negated (c :: seen) rest
      | 's' => readFlags { flags with dotAll := on } negated (c :: seen) rest
      | 'U' => readFlags flags negated (c :: seen) rest
      | 'u' => readFlags { flags with unicode := on } negated (c :: seen) rest
      | 'R' => readFlags { flags with carriageReturn := on } negated (c :: seen) rest
      | 'x' => readFlags { flags with verbose := on } negated (c :: seen) rest
      | _ => .error .flag

/-- Whether a character may stand in a group's name. -/
def isNameChar (first : Bool) (c : Char) : Bool :=
  c = '_' || Text.inRanges Text.laterAlphabetic c.toNat ||
    (!first && (c = '.' || c = '[' || c = ']' || Text.inRanges Text.laterNumbers c.toNat))

/-- The name of a group, up to and with its closing bracket. -/
def readName (names : List (List Char)) (s : List Char) :
    Except PatternError (List Char × List Char) :=
  match s.takeWhile (· ≠ '>'), s.dropWhile (· ≠ '>') with
  | first :: more, _ :: rest =>
    let name := first :: more
    if isNameChar true first && more.all (isNameChar false) && !names.contains name then
      .ok (name, rest)
    else .error .groupName
  | _, _ => .error .groupName

/-- What begins at an opening parenthesis. -/
inductive Opening where
  | group (captured : Bool) (flags : Flags) (names : List (List Char))
  | flags (flags : Flags)

/-- Reads what follows an opening parenthesis, up to the content of the group. -/
def readOpening (flags : Flags) (names : List (List Char)) (s : List Char) :
    Except PatternError (Opening × List Char) :=
  match trimmed flags s with
  | '?' :: '=' :: _ => .error .lookAround
  | '?' :: '!' :: _ => .error .lookAround
  | '?' :: '<' :: '=' :: _ => .error .lookAround
  | '?' :: '<' :: '!' :: _ => .error .lookAround
  | '?' :: 'P' :: '<' :: rest => do
    let (name, rest) ← readName names rest
    return (.group true flags (name :: names), rest)
  | '?' :: '<' :: rest => do
    let (name, rest) ← readName names rest
    return (.group true flags (name :: names), rest)
  | '?' :: ')' :: _ => .error .repetitionMissing
  | '?' :: rest => do
    match ← readFlags flags false [] rest with
    | (inner, ':' :: rest) => return (.group false inner names, rest)
    | (inner, _ :: rest) => return (.flags inner, rest)
    | (_, []) => .error .groupUnclosed
  | s => .ok (.group true flags names, s)

/-! ## 3. Items -/

/-- An expression with the depth of its tree. -/
structure Branch where
  expression : Expression
  depth : Nat

/-- A part of a sequence: an expression, or flags, which cannot be repeated. -/
structure Item where
  branch : Branch
  isFlags : Bool

/-- An item of an expression that is no tree. -/
def Item.leaf (e : Expression) : Item := ⟨⟨e, 0⟩, false⟩

/-- The items, last first, one after the other: a level of its own, unless there is only one. -/
def sequence : List Item → Branch
  | [item] => item.branch
  | items =>
    ⟨items.foldl (fun after item => item.branch.expression.followedBy after) .empty,
      if items.isEmpty then 0 else (items.foldl (fun n i => max n i.branch.depth) 0) + 1⟩

/-- The alternatives, last first: a level of its own, unless there is only one. -/
def alternatives : List Branch → Branch
  | [branch] => branch
  | branches =>
    ⟨Expression.oneOf (branches.reverse.map Branch.expression),
      (branches.foldl (fun n b => max n b.depth) 0) + 1⟩

/-- A group around a branch. -/
def grouped (captured : Bool) (branch : Branch) : Item :=
  ⟨⟨if captured then .captured branch.expression else branch.expression, branch.depth + 1⟩, false⟩

/-- The last item, repeated. -/
def repeatLast (items : List Item) (least : Nat) (most : Option Nat) :
    Except PatternError (List Item) :=
  match items with
  | ⟨⟨e, depth⟩, false⟩ :: more => .ok (⟨⟨e.times least most, depth + 1⟩, false⟩ :: more)
  | _ => .error .repetitionMissing

/-- The dot: any character, or any but those that end a line. -/
def dot (flags : Flags) : List Text.Range :=
  if flags.dotAll then Text.complement []
  else if flags.carriageReturn then Text.complement [(10, 10), (13, 13)]
  else Text.complement [(10, 10)]

/-- The expression of an escape. -/
def escapeExpression (flags : Flags) : Escape → Expression
  | .literal c => .set (single flags c)
  | .chars set => .set set
  | .condition a => .anchor a

/-! ## 4. Expressions -/

/-- Reads alternatives up to a closing parenthesis or the end. The arguments are the flags, the
    names of groups so far, the alternatives before and the items of this one, last first. The
    answer holds the names as well. -/
def readAlternatives : Nat → Flags → List (List Char) → List Branch → List Item →
    List Char → Except PatternError ((Branch × List (List Char)) × List Char)
  | 0, _, _, _, _, _ => .error .tooLong
  | fuel + 1, flags, names, before, items, s =>
    let s := trimmed flags s
    let push (item : Item) (rest : List Char) :=
      readAlternatives fuel flags names before (item :: items) rest
    let again (least : Nat) (most : Option Nat) (rest : List Char) := do
      readAlternatives fuel flags names before (← repeatLast items least most) rest
    match s with
    | [] => .ok ((alternatives (sequence items :: before), names), [])
    | c :: rest =>
      if c = ')' then .ok ((alternatives (sequence items :: before), names), s)
      else if c = '(' then do
        match ← readOpening flags names rest with
        | (.flags flags, rest) =>
          readAlternatives fuel flags names before (⟨⟨.empty, 0⟩, true⟩ :: items) rest
        | (.group captured inner names, rest) =>
          match ← readAlternatives fuel inner names [] [] rest with
          | ((branch, names), _ :: rest) =>
            readAlternatives fuel flags names before (grouped captured branch :: items) rest
          | (_, []) => .error .groupUnclosed
      else if c = '|' then
        readAlternatives fuel flags names (sequence items :: before) [] rest
      else if c = '[' then do
        let (tree, rest) ← readClass flags (2 * fuel + 2) rest
        push ⟨⟨.set tree.set, tree.depth⟩, false⟩ rest
      else if c = '?' then again 0 (some 1) (dropLazy rest)
      else if c = '*' then again 0 none (dropLazy rest)
      else if c = '+' then again 1 none (dropLazy rest)
      else if c = '\x7b' then
        match items with
        | ⟨_, false⟩ :: _ => do
          let ((least, most), rest) ← readBounds flags rest
          again least most (dropLazy (trimmed flags rest))
        | _ => .error .repetitionMissing
      else if c = '\\' then do
        let (e, rest) ← readEscape flags rest
        push (.leaf (escapeExpression flags e)) rest
      else if c = '.' then
        if flags.unicode then push (.leaf (.set (dot flags))) rest else .error .notUnicode
      else if c = '^' then
        let start : Anchor :=
          if flags.multiline then .lineStart flags.carriageReturn else .textStart
        push (.leaf (.anchor start)) rest
      else if c = '$' then
        let stop : Anchor := if flags.multiline then .lineEnd flags.carriageReturn else .textEnd
        push (.leaf (.anchor stop)) rest
      else push (.leaf (.set (single flags c))) rest

/-- The greatest depth of a pattern. -/
def depthLimit : Nat := 250

/-- The expression a text spells. -/
def read (text : String) : Except PatternError Expression :=
  let s := text.toList
  match readAlternatives (s.length + 1) .initial [] [] [] s with
  | .ok ((branch, _), []) =>
    if depthLimit < branch.depth then .error .tooDeep
    else if branch.expression.isTooLarge then .error .tooLarge
    else .ok branch.expression
  | .ok (_, _ :: _) => .error .groupUnopened
  | .error e => .error e

/-- This library of patterns. -/
instance reader : Library := ⟨fun text => ((read text).map Expression.isMatch).mapError (·.message)⟩

end TaggedSchema.Pattern
