import TaggedSchema.Pattern.Escape

/-!
# Bracketed classes

Classes of characters in brackets: characters, ranges, escapes, POSIX classes and nested classes,
joined by the operations on sets. Each class comes with the depth of its tree, in which a class, a
union of several parts and an operation are one level each.
-/

namespace TaggedSchema.Pattern

/-! ## 1. Parts -/

/-- A POSIX class after its opening bracket, if there is one. -/
def readPosix? (s : List Char) : Option (Bool × List Text.Range × List Char) :=
  match s with
  | ':' :: rest =>
    let (negated, rest) := match rest with
      | '^' :: r => (true, r)
      | r => (false, r)
    match rest.dropWhile (· ≠ ':') with
    | ':' :: ']' :: after =>
      (Text.posixClasses.lookup (String.ofList (rest.takeWhile (· ≠ ':')))).map (negated, ·, after)
    | _ => none
  | _ => none

/-- One part of a class: a character or a set. -/
def readClassPart (flags : Flags) (s : List Char) : Except PatternError (Escape × List Char) :=
  match s with
  | '\\' :: rest => readEscape flags rest
  | c :: rest => .ok (.literal c, rest)
  | [] => .error .classUnclosed

/-- The range between two characters. A pattern of bytes has those of ASCII only. -/
def rangeBetween (flags : Flags) (low high : Char) : Except PatternError (List Text.Range) :=
  if high < low then .error .classRange
  else if !flags.unicode && 128 ≤ high.toNat then .error .notUnicode
  else .ok [(low.toNat, high.toNat)]

/-- The set of a part that stands alone. -/
def partSet (flags : Flags) : Escape → Except PatternError (List Text.Range)
  | .literal c => rangeBetween flags c c
  | .chars set => .ok set
  | .condition _ => .error .classEscape

/-- Drops a comment sign and the blanks at its sides. -/
def beyondCommentSign (s : List Char) : List Char :=
  match s.dropWhile Text.isBlank with
  | '#' :: rest => rest.dropWhile Text.isBlank
  | s => s

/-- The character behind a hyphen, beyond the blanks of a verbose pattern, if there is one beyond
    them. -/
def peek (flags : Flags) (s : List Char) : Option Char :=
  if flags.verbose then (beyondCommentSign s).head? <|> s.head? else s.head?

/-- A part of a class, or a range between two characters. -/
def readClassItem (flags : Flags) (s : List Char) :
    Except PatternError (List Text.Range × List Char) := do
  let (first, rest) ← readClassPart flags s
  let rest := trimmed flags rest
  match rest with
  | [] => .error .classUnclosed
  | c :: after =>
    let next := peek flags after
    if c ≠ '-' || next = some ']' || next = some '-' then return (← partSet flags first, rest)
    else
      let (second, rest) ← readClassPart flags (trimmed flags after)
      match first, second with
      | .literal low, .literal high => return (← rangeBetween flags low high, rest)
      | _, _ => .error .classRange

/-! ## 2. Unions and operations -/

/-- A set with the depth of its tree. -/
structure Tree where
  set : List Text.Range
  depth : Nat

/-- The parts of a union: their set, how many they are, and the greatest depth among them. -/
structure Parts where
  set : List Text.Range
  count : Nat
  depth : Nat

namespace Parts

/-- No parts. -/
def empty : Parts := ⟨[], 0, 0⟩

/-- The parts and one more. -/
def push (parts : Parts) (set : List Text.Range) (depth : Nat) : Parts :=
  ⟨Text.union parts.set set, parts.count + 1, max parts.depth depth⟩

/-- The union as one tree: a level of its own, unless there is only one part. -/
def toTree (parts : Parts) : Tree :=
  ⟨parts.set, if parts.count < 2 then parts.depth else parts.depth + 1⟩

end Parts

/-- The operations between sets in a class. -/
inductive SetOperation where
  | intersection
  | difference
  | symmetric

/-- Two sets joined. -/
def SetOperation.apply (op : SetOperation) (a b : List Text.Range) : List Text.Range :=
  match op with
  | intersection => Text.intersection a b
  | difference => Text.difference a b
  | symmetric => Text.symmetricDifference a b

/-- What stands before an operation, joined to what stands behind it, both without regard to case if
    that is the flag. -/
def joinSets (flags : Flags) (pending : Option (Tree × SetOperation)) (parts : Parts) : Tree :=
  match pending with
  | some (before, op) =>
    let after := parts.toTree
    ⟨op.apply (folded flags before.set) (folded flags after.set),
      max before.depth after.depth + 1⟩
  | none => parts.toTree

/-- The set operation in front. -/
def setOperation? : List Char → Option (SetOperation × List Char)
  | '&' :: '&' :: rest => some (.intersection, rest)
  | '-' :: '-' :: rest => some (.difference, rest)
  | '~' :: '~' :: rest => some (.symmetric, rest)
  | _ => none

/-! ## 3. Classes -/

/-- The hyphens at the start of a class, which stand for themselves. -/
def leadingHyphens (flags : Flags) : Nat → Parts → List Char → Parts × List Char
  | 0, parts, s => (parts, s)
  | fuel + 1, parts, s =>
    match s with
    | '-' :: rest =>
      leadingHyphens flags fuel (parts.push [('-'.toNat, '-'.toNat)] 0) (trimmed flags rest)
    | _ => (parts, s)

mutual

/-- A class after its opening bracket, up to and with the closing one. -/
def readClass (flags : Flags) : Nat → List Char → Except PatternError (Tree × List Char)
  | 0, _ => .error .tooLong
  | fuel + 1, s => do
    let s := trimmed flags s
    let (negated, s) := match s with
      | '^' :: rest => (true, trimmed flags rest)
      | s => (false, s)
    let (parts, s) := leadingHyphens flags fuel .empty s
    let (parts, s) := match s with
      | ']' :: rest =>
        if parts.count = 0 then (parts.push [(']'.toNat, ']'.toNat)] 0, rest) else (parts, s)
      | _ => (parts, s)
    let (tree, s) ← readClassItems flags fuel none parts s
    return (⟨← allowed flags negated (folded flags tree.set), tree.depth + 1⟩, s)
termination_by structural fuel => fuel

/-- The rest of a class. `pending` is what stands before the last operation, `parts` what stands
    behind it so far. -/
def readClassItems (flags : Flags) : Nat → Option (Tree × SetOperation) → Parts → List Char →
    Except PatternError (Tree × List Char)
  | 0, _, _, _ => .error .tooLong
  | fuel + 1, pending, parts, s =>
    let s := trimmed flags s
    match s with
    | [] => .error .classUnclosed
    | ']' :: rest => .ok (joinSets flags pending parts, rest)
    | '[' :: rest =>
      match readPosix? rest with
      | some (negated, set, rest) => do
        let set ← allowed flags negated (folded flags set)
        readClassItems flags fuel pending (parts.push set 0) rest
      | none => do
        let (inner, rest) ← readClass flags fuel rest
        readClassItems flags fuel pending (parts.push inner.set inner.depth) rest
    | _ =>
      match setOperation? s with
      | some (op, rest) =>
        readClassItems flags fuel (some (joinSets flags pending parts, op)) .empty rest
      | none => do
        let (set, rest) ← readClassItem flags s
        readClassItems flags fuel pending (parts.push set 0) rest
termination_by structural fuel => fuel

end

end TaggedSchema.Pattern
