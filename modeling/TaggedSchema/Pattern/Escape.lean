import TaggedSchema.Pattern.Expression
import TaggedSchema.Text.Classes
import TaggedSchema.Text.Folding

/-!
# Escapes in patterns

What a backslash stands for: a character, a set of characters or a condition, as the flags in force
have it. In a verbose pattern, blanks and comments may stand between the characters of the notation,
within an escape as well.
-/

namespace TaggedSchema.Pattern

/-! ## 1. Faults and flags -/

/-- Why a text is no pattern. -/
inductive PatternError where
  | groupUnopened
  | groupUnclosed
  | groupName
  | lookAround
  | backReference
  | repetitionMissing
  | repetitionUnclosed
  | repetitionCount
  | repetitionOrder
  | escapeUnfinished
  | escapeUnknown
  | hexadecimal
  | classUnclosed
  | classRange
  | classEscape
  | property
  | flag
  | wordBoundary
  | notUnicode
  | tooDeep
  | tooLarge
  | tooLong
deriving DecidableEq

/-- What is said about it. -/
def PatternError.message : PatternError → String
  | groupUnopened => "unopened group"
  | groupUnclosed => "unclosed group"
  | groupName => "invalid capture group name"
  | lookAround => "look-around is not supported"
  | backReference => "backreferences are not supported"
  | repetitionMissing => "repetition operator missing expression"
  | repetitionUnclosed => "unclosed counted repetition"
  | repetitionCount => "repetition quantifier expects a valid decimal"
  | repetitionOrder => "invalid repetition count range"
  | escapeUnfinished => "incomplete escape sequence"
  | escapeUnknown => "unrecognized escape sequence"
  | hexadecimal => "invalid hexadecimal escape"
  | classUnclosed => "unclosed character class"
  | classRange => "invalid character class range"
  | classEscape => "invalid escape sequence in character class"
  | property => "Unicode property not found"
  | flag => "invalid flags"
  | wordBoundary => "invalid special word boundary"
  | notUnicode => "pattern can match invalid text"
  | tooDeep => "pattern is nested too deeply"
  | tooLarge => "pattern takes too much space"
  | tooLong => "pattern is too long to be read"

/-- The flags in force. -/
structure Flags where
  caseless : Bool
  multiline : Bool
  dotAll : Bool
  unicode : Bool
  carriageReturn : Bool
  verbose : Bool

/-- The flags at the start of a pattern. -/
def Flags.initial : Flags := ⟨false, false, false, true, false, false⟩

/-! ## 2. Blanks -/

/-- Drops blanks and comments in front. `inComment` holds behind a number sign, up to the end of the
    line. -/
def skipBlanks (inComment : Bool) : List Char → List Char
  | [] => []
  | c :: rest =>
    if inComment then skipBlanks (c ≠ '\n') rest
    else if Text.isBlank c then skipBlanks false rest
    else if c = '#' then skipBlanks true rest
    else c :: rest

/-- Drops blanks and comments in front, where the pattern is verbose. -/
def trimmed (flags : Flags) (s : List Char) : List Char :=
  if flags.verbose then skipBlanks false s else s

/-- What stands before the closing brace, without the blanks and comments of a verbose pattern, and
    what stands behind it. -/
def untilBrace (flags : Flags) (inComment : Bool) : List Char → Option (List Char × List Char)
  | [] => none
  | c :: rest =>
    if inComment then untilBrace flags (c ≠ '\n') rest
    else if flags.verbose && Text.isBlank c then untilBrace flags false rest
    else if flags.verbose && c = '#' then untilBrace flags true rest
    else if c = '\x7d' then some ([], rest)
    else (untilBrace flags false rest).map fun (inner, after) => (c :: inner, after)

/-! ## 3. Characters -/

/-- The value of a hexadecimal digit. -/
def hexValue? (c : Char) : Option Nat :=
  if c.isDigit then some (c.toNat - '0'.toNat)
  else if 'a' ≤ c ∧ c ≤ 'f' then some (c.toNat - 'a'.toNat + 10)
  else if 'A' ≤ c ∧ c ≤ 'F' then some (c.toNat - 'A'.toNat + 10)
  else none

/-- The characters with a meaning of their own, which an escape takes away. -/
def isMeta (c : Char) : Bool :=
  ['\\', '.', '+', '*', '?', '(', ')', '|', '[', ']', '\x7b', '\x7d', '^', '$', '#', '&', '-',
    '~'].contains c

/-- Whether an escape before the character stands for the character. -/
def isEscapable (c : Char) : Bool :=
  isMeta c || (c.toNat < 128 && !c.isAlphanum && c ≠ '<' && c ≠ '>')

/-- The character of a code. -/
def charOf (code : Nat) : Except PatternError Char :=
  if code.isValidChar then .ok (Char.ofNat code) else .error .hexadecimal

/-- The code that some hexadecimal digits spell, at least one. -/
def braced (digits : List Char) : Except PatternError Char :=
  match digits.mapM hexValue? with
  | some (d :: more) => charOf ((d :: more).foldl (fun n d => 16 * n + d) 0)
  | _ => .error .hexadecimal

/-- The code that a number of hexadecimal digits spell, after a code so far. -/
def readDigits (flags : Flags) : Nat → Nat → List Char → Except PatternError (Nat × List Char)
  | 0, code, s => .ok (code, s)
  | _ + 1, _, [] => .error .escapeUnfinished
  | count + 1, code, c :: rest =>
    match hexValue? c with
    | some d => readDigits flags count (16 * code + d) (trimmed flags rest)
    | none => .error .hexadecimal

/-- A hexadecimal escape after its letter: a number of digits, or any digits in braces. Two digits
    stand for a byte, which is no character where the pattern is of bytes, unless it is of ASCII. -/
def readHex (flags : Flags) (count : Nat) (s : List Char) :
    Except PatternError (Char × List Char) :=
  match trimmed flags s with
  | '\x7b' :: rest =>
    match untilBrace flags false rest with
    | some (digits, rest) => (braced digits).map fun c => (c, rest)
    | none => .error .escapeUnfinished
  | s => do
    let (code, rest) ← readDigits flags count 0 s
    if count = 2 && !flags.unicode && 128 ≤ code then .error .notUnicode
    else return (← charOf code, rest)

/-! ## 4. Sets -/

/-- The characters of ASCII. -/
def ascii : List Text.Range := [(0, 0x7F)]

/-- A set of characters, without regard to case if that is the flag; a pattern of bytes knows the
    cases of ASCII only. -/
def folded (flags : Flags) (set : List Text.Range) : List Text.Range :=
  if !flags.caseless then set
  else if flags.unicode then Text.foldClosure set
  else Text.intersection (Text.foldClosure set) ascii

/-- The set, or its complement. -/
def signed (negated : Bool) (set : List Text.Range) : List Text.Range :=
  if negated then Text.complement set else set

/-- The set of a character that stands for itself. -/
def single (flags : Flags) (c : Char) : List Text.Range :=
  if !flags.unicode && 128 ≤ c.toNat then [(c.toNat, c.toNat)]
  else folded flags [(c.toNat, c.toNat)]

/-- A set, complemented or not, as far as the flags allow it: a pattern of bytes has no complements,
    as they would hold bytes that are no text. -/
def allowed (flags : Flags) (negated : Bool) (set : List Text.Range) :
    Except PatternError (List Text.Range) :=
  if negated && !flags.unicode then .error .notUnicode else .ok (signed negated set)

/-! ## 5. Properties -/

/-- Splits at the first place where a test on the rest finds a mark. -/
def splitAtMark (mark? : List Char → Option (List Char)) :
    List Char → Option (List Char × List Char)
  | [] => none
  | c :: rest =>
    match mark? (c :: rest) with
    | some after => some ([], after)
    | none => (splitAtMark mark? rest).map fun (before, after) => (c :: before, after)

/-- What stands behind a character in front. -/
def behind? (mark : Char) : List Char → Option (List Char)
  | c :: rest => if c = mark then some rest else none
  | [] => none

/-- What stands behind the sign of inequality in front. -/
def behindUnequal? : List Char → Option (List Char)
  | '!' :: '=' :: rest => some rest
  | _ => none

/-- The set of a property in braces: a name, or a name and a value with a sign between. The sign
    does not count: inequality is like equality. -/
def bracedProperty? (inner : List Char) : Option (List Text.Range) :=
  match splitAtMark behindUnequal? inner <|> splitAtMark (behind? ':') inner <|>
      splitAtMark (behind? '=') inner with
  | some (name, value) => Text.propertyValue? name value
  | none => Text.property? inner

/-- A Unicode property after its letter: in braces, or of one letter. -/
def readProperty (flags : Flags) (negated : Bool) (s : List Char) :
    Except PatternError (List Text.Range × List Char) :=
  let answer (set : Option (List Text.Range)) (rest : List Char) :=
    match set with
    | some set =>
      if flags.unicode then .ok (signed negated (folded flags set), rest)
      else .error PatternError.notUnicode
    | none => .error .property
  match trimmed flags s with
  | [] => .error .escapeUnfinished
  | '\x7b' :: rest =>
    match untilBrace flags false rest with
    | some (inner, rest) => answer (bracedProperty? inner) rest
    | none => .error .escapeUnfinished
  | c :: rest => if c = '\\' then .error .property else answer (Text.property? [c]) rest

/-! ## 6. Short classes and boundaries -/

/-- The word characters of the flags. -/
def wordOf (flags : Flags) : List Text.Range :=
  if flags.unicode then Text.wordRanges else Text.asciiWordRanges

/-- The set of a short class, by its small letter. Case does not matter to it. -/
def shortClass (flags : Flags) (letter : Char) (negated : Bool) :
    Except PatternError (List Text.Range) :=
  allowed flags negated
    (if letter = 'd' then if flags.unicode then Text.digitRanges else Text.asciiDigitRanges
    else if letter = 's' then if flags.unicode then Text.blankRanges else Text.asciiBlankRanges
    else wordOf flags)

/-- A word boundary after its letter: a plain one, or a special one named in braces. Braces that do
    not begin with a letter or a hyphen are left to a counted repetition. -/
def readBoundary (flags : Flags) (s : List Char) : Except PatternError (Anchor × List Char) :=
  let word := wordOf flags
  match s with
  | '\x7b' :: rest =>
    match trimmed flags rest with
    | [] => .error .wordBoundary
    | c :: _ =>
      if !(c.isAlpha || c = '-') then .ok (.wordBoundary word, s)
      else
        match untilBrace flags false rest with
        | some (name, after) =>
          match String.ofList name with
          | "start" => .ok (.wordStart word, after)
          | "end" => .ok (.wordEnd word, after)
          | "start-half" => .ok (.wordStartHalf word, after)
          | "end-half" => .ok (.wordEndHalf word, after)
          | _ => .error .wordBoundary
        | none => .error .wordBoundary
  | _ => .ok (.wordBoundary word, s)

/-! ## 7. Escapes -/

/-- What an escape stands for. -/
inductive Escape where
  | literal (c : Char)
  | chars (set : List Text.Range)
  | condition (anchor : Anchor)

/-- The characters that a letter stands for. -/
def letterEscapes : List (Char × Nat) :=
  [('a', 7), ('f', 12), ('t', 9), ('n', 10), ('r', 13), ('v', 11)]

/-- An escape after its backslash. -/
def readEscape (flags : Flags) (s : List Char) : Except PatternError (Escape × List Char) :=
  match s with
  | [] => .error .escapeUnfinished
  | c :: rest =>
    if c.isDigit then .error .backReference
    else if c = 'x' then (readHex flags 2 rest).map fun (c, s) => (.literal c, s)
    else if c = 'u' then (readHex flags 4 rest).map fun (c, s) => (.literal c, s)
    else if c = 'U' then (readHex flags 8 rest).map fun (c, s) => (.literal c, s)
    else if c = 'p' then (readProperty flags false rest).map fun (set, s) => (.chars set, s)
    else if c = 'P' then (readProperty flags true rest).map fun (set, s) => (.chars set, s)
    else if ['d', 's', 'w'].contains c then do return (.chars (← shortClass flags c false), rest)
    else if ['D', 'S', 'W'].contains c then do
      return (.chars (← shortClass flags c.toLower true), rest)
    else if isEscapable c then .ok (.literal c, rest)
    else if c = 'A' then .ok (.condition .textStart, rest)
    else if c = 'z' then .ok (.condition .textEnd, rest)
    else if c = 'b' then (readBoundary flags rest).map fun (a, s) => (.condition a, s)
    else if c = 'B' then .ok (.condition (.noWordBoundary (wordOf flags)), rest)
    else if c = '<' then .ok (.condition (.wordStart (wordOf flags)), rest)
    else if c = '>' then .ok (.condition (.wordEnd (wordOf flags)), rest)
    else
      match letterEscapes.lookup c with
      | some code => .ok (.literal (Char.ofNat code), rest)
      | none => .error .escapeUnknown

end TaggedSchema.Pattern
