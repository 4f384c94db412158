import TaggedSchema.Json

/-!
# Reading JSON text

`Json.read?` reads one document and nothing after it but blanks. Of two members of one key the later
counts. A number without fraction and exponent is an integer if 64 bits hold it; every other number,
and `-0`, is a binary64 number. Each step consumes a character, so the length of the text bounds the
recursion.
-/

namespace TaggedSchema.Json

/-! ## 1. Blanks and digits -/

/-- The characters that may stand between tokens. -/
def isBlank (c : Char) : Bool := c = ' ' || c = '\n' || c = '\t' || c = '\r'

/-- Drops the blanks in front. -/
def skipBlanks (s : List Char) : List Char := s.dropWhile isBlank

/-- The value of a decimal digit. -/
def digitValue (c : Char) : Nat := c.toNat - '0'.toNat

/-- The value of a hexadecimal digit. -/
def hexValue? (c : Char) : Option Nat :=
  if c.isDigit then some (digitValue c)
  else if 'a' ≤ c ∧ c ≤ 'f' then some (c.toNat - 'a'.toNat + 10)
  else if 'A' ≤ c ∧ c ≤ 'F' then some (c.toNat - 'A'.toNat + 10)
  else none

/-- The number that decimal digits spell. -/
def natOfDigits (digits : List Char) : Nat := digits.foldl (fun n c => 10 * n + digitValue c) 0

/-! ## 2. Numbers -/

/-- The greatest significand that is kept exactly. -/
def significandLimit : Nat := 2 ^ 64

/-- Takes the digits as long as the significand stays below the limit: the significand, how many
    digits it took, and how many were left. -/
def leadingDigits (significand : Nat) : List Char → Nat → Nat × Nat × Nat
  | [], taken => (significand, taken, 0)
  | c :: rest, taken =>
    let next := 10 * significand + digitValue c
    if next < significandLimit then leadingDigits next rest (taken + 1)
    else (significand, taken, rest.length + 1)

/-- A number with a fraction or an exponent. The significand is made of the leading digits that 64
    bits hold; integer digits past them count as powers of ten, fraction digits past them not at
    all. -/
def floatOf? (negative : Bool) (whole fraction : List Char) (exponent : Int) : Option Binary64 :=
  let (significand, _, wholeLeft) := leadingDigits 0 whole 0
  let (significand, taken, _) := leadingDigits significand fraction 0
  Binary64.scaledDecimal? negative significand ((wholeLeft : Int) - (taken : Int) + exponent)

/-- Whether the digits in front of the exponent are all zero. -/
def allZero (digits : List Char) : Bool := digits.all (· = '0')

/-- The exponent as far as it matters: a longer one overflows or vanishes either way. -/
def exponentLimit : Nat := 2 ^ 31

/-- The number these parts spell: no fraction and no exponent are `none`. -/
def numberOf? (negative : Bool) (whole : List Char) (fraction : Option (List Char))
    (exponent : Option Int) : Option Number :=
  match fraction, exponent with
  | none, none =>
    let n := natOfDigits whole
    if negative ∧ n = 0 then some (.float Binary64.zero.neg)
    else
      match Number.ofInt? (if negative then -n else n) with
      | some n => some n
      | none => (floatOf? negative whole [] 0).map .float
  | _, _ =>
    let fraction := fraction.getD []
    let exponent := exponent.getD 0
    if exponentLimit ≤ exponent.natAbs then
      if exponent < 0 ∨ allZero (whole ++ fraction) then
        some (.float (if negative then Binary64.zero.neg else .zero))
      else none
    else (floatOf? negative whole fraction exponent).map .float

/-- The exponent in front, if there is one: an `e`, a sign or none, and digits. -/
def readExponent? : List Char → Option (Option Int × List Char)
  | c :: rest =>
    if c = 'e' ∨ c = 'E' then
      let (negative, rest) := match rest with
        | '+' :: r => (false, r)
        | '-' :: r => (true, r)
        | r => (false, r)
      match rest.takeWhile Char.isDigit with
      | [] => none
      | digits =>
        let n : Int := natOfDigits digits
        some (some (if negative then -n else n), rest.dropWhile Char.isDigit)
    else some (none, c :: rest)
  | [] => some (none, [])

/-- The fraction in front, if there is one: a point and digits. -/
def readFraction? : List Char → Option (Option (List Char) × List Char)
  | '.' :: rest =>
    match rest.takeWhile Char.isDigit with
    | [] => none
    | digits => some (some digits, rest.dropWhile Char.isDigit)
  | s => some (none, s)

/-- The number in front. -/
def readNumber? (s : List Char) : Option (Number × List Char) :=
  let (negative, s) := match s with
    | '-' :: r => (true, r)
    | r => (false, r)
  match s.takeWhile Char.isDigit, s.dropWhile Char.isDigit with
  | [], _ => none
  | '0' :: _ :: _, _ => none
  | whole, rest => do
    let (fraction, rest) ← readFraction? rest
    let (exponent, rest) ← readExponent? rest
    return (← numberOf? negative whole fraction exponent, rest)

/-! ## 3. Strings -/

/-- Four hexadecimal digits in front. -/
def readHex4? : List Char → Option (Nat × List Char)
  | a :: b :: c :: d :: rest => do
    let (a, b, c, d) := (← hexValue? a, ← hexValue? b, ← hexValue? c, ← hexValue? d)
    return (((a * 16 + b) * 16 + c) * 16 + d, rest)
  | _ => none

/-- The character of a `\u` escape, whose digits are in front; characters past the basic plane are
    a pair of escapes, and half a pair is no character. -/
def readUnicode? (s : List Char) : Option (Char × List Char) := do
  let (unit, rest) ← readHex4? s
  if 0xD800 ≤ unit ∧ unit < 0xDC00 then
    match rest with
    | '\\' :: 'u' :: rest =>
      let (low, rest) ← readHex4? rest
      if 0xDC00 ≤ low ∧ low < 0xE000 then
        return (Char.ofNat (0x10000 + (unit - 0xD800) * 0x400 + (low - 0xDC00)), rest)
      else none
    | _ => none
  else if 0xDC00 ≤ unit ∧ unit < 0xE000 then none
  else return (Char.ofNat unit, rest)

/-- The characters of a string up to its closing quote. -/
def readChars? : Nat → List Char → Option (List Char × List Char)
  | 0, _ => none
  | fuel + 1, s =>
    match s with
    | [] => none
    | '"' :: rest => some ([], rest)
    | '\\' :: 'u' :: rest => do
      let (c, rest) ← readUnicode? rest
      let (more, rest) ← readChars? fuel rest
      return (c :: more, rest)
    | '\\' :: e :: rest => do
      let c ← match e with
        | '"' => some '"'
        | '\\' => some '\\'
        | '/' => some '/'
        | 'b' => some '\x08'
        | 'f' => some '\x0c'
        | 'n' => some '\n'
        | 'r' => some '\r'
        | 't' => some '\t'
        | _ => none
      let (more, rest) ← readChars? fuel rest
      return (c :: more, rest)
    | c :: rest => do
      if c = '\\' ∨ c.toNat < 32 then none
      else
        let (more, rest) ← readChars? fuel rest
        return (c :: more, rest)

/-- The string in front, whose opening quote has been read. -/
def readString? (s : List Char) : Option (String × List Char) :=
  (readChars? (s.length + 1) s).map fun (chars, rest) => (String.ofList chars, rest)

/-! ## 4. Values -/

/-- Drops a word in front. -/
def dropWord? : List Char → List Char → Option (List Char)
  | [], s => some s
  | c :: word, d :: s => if c = d then dropWord? word s else none
  | _, [] => none

mutual

/-- The value in front. -/
def readValue? : Nat → List Char → Option (Json × List Char)
  | 0, _ => none
  | fuel + 1, s =>
    match skipBlanks s with
    | '"' :: rest => do
      let (s, rest) ← readString? rest
      return (.string s, rest)
    | '[' :: rest =>
      match skipBlanks rest with
      | ']' :: rest => some (.array [], rest)
      | rest => do
        let (items, rest) ← readItems? fuel rest
        return (.array items, rest)
    | '\x7b' :: rest =>
      match skipBlanks rest with
      | '\x7d' :: rest => some (.object [], rest)
      | rest => do
        let (members, rest) ← readMembers? fuel rest
        return (ofMembers members, rest)
    | 'n' :: rest => (dropWord? ['u', 'l', 'l'] rest).map fun rest => (.null, rest)
    | 't' :: rest => (dropWord? ['r', 'u', 'e'] rest).map fun rest => (.bool true, rest)
    | 'f' :: rest => (dropWord? ['a', 'l', 's', 'e'] rest).map fun rest => (.bool false, rest)
    | s => (readNumber? s).map fun (n, rest) => (.number n, rest)
termination_by structural fuel => fuel

/-- Items up to the closing bracket. -/
def readItems? : Nat → List Char → Option (List Json × List Char)
  | 0, _ => none
  | fuel + 1, s => do
    let (item, rest) ← readValue? fuel s
    match skipBlanks rest with
    | ']' :: rest => return ([item], rest)
    | ',' :: rest =>
      let (items, rest) ← readItems? fuel rest
      return (item :: items, rest)
    | _ => none
termination_by structural fuel => fuel

/-- Members up to the closing brace. -/
def readMembers? : Nat → List Char → Option (List (String × Json) × List Char)
  | 0, _ => none
  | fuel + 1, s =>
    match skipBlanks s with
    | '"' :: rest => do
      let (key, rest) ← readString? rest
      match skipBlanks rest with
      | ':' :: rest =>
        let (value, rest) ← readValue? fuel rest
        match skipBlanks rest with
        | '\x7d' :: rest => return ([(key, value)], rest)
        | ',' :: rest =>
          let (members, rest) ← readMembers? fuel rest
          return ((key, value) :: members, rest)
        | _ => none
      | _ => none
    | _ => none
termination_by structural fuel => fuel

end

/-- The document a text spells. -/
def read? (text : String) : Option Json :=
  let s := text.toList
  match readValue? (2 * s.length + 2) s with
  | some (value, rest) => if (skipBlanks rest).isEmpty then some value else none
  | none => none

end TaggedSchema.Json
