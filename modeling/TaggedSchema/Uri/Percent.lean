/-!
# Percent-encoding

The characters that a component of a URL may not hold are written byte by byte, each byte as a
percent sign and two hexadecimal digits. Every component has a set of its own of such characters.
-/

namespace TaggedSchema.Uri

/-! ## 1. Sets -/

/-- Control characters and everything outside ASCII, which no component holds. -/
def isControl (c : Char) : Bool := c.toNat < 0x20 || 0x7E < c.toNat

/-- What a path does not hold. -/
def outsidePath (c : Char) : Bool :=
  isControl c || [' ', '"', '#', '<', '>', '?', Char.ofNat 0x60, '\x7b', '\x7d'].contains c

/-- What user information does not hold. -/
def outsideUser (c : Char) : Bool :=
  outsidePath c || ['/', ':', ';', '=', '@', '[', '\\', ']', '^', '|'].contains c

/-- What a query does not hold; in a special URL no apostrophe either. -/
def outsideQuery (special : Bool) (c : Char) : Bool :=
  isControl c || [' ', '"', '#', '<', '>'].contains c || (special && c.toNat = 0x27)

/-! ## 2. Writing and reading -/

/-- A hexadecimal digit, upper case. -/
def hexDigit (n : Nat) : Char := (Nat.digitChar (n % 16)).toUpper

/-- One byte, percent-encoded. -/
def percent (byte : UInt8) : List Char := ['%', hexDigit (byte.toNat / 16), hexDigit byte.toNat]

/-- The text with the characters outside a component encoded byte by byte. -/
def encode (outside : Char → Bool) (s : List Char) : List Char :=
  s.flatMap fun c => if outside c then (String.singleton c).toUTF8.toList.flatMap percent else [c]

/-- Percent-encoded ASCII characters decoded; all else is kept. -/
def decodeAscii : List Char → List Char
  | '%' :: a :: b :: rest =>
    let value (c : Char) : Option Nat :=
      if c.isDigit then some (c.toNat - '0'.toNat)
      else if 'a' ≤ c.toLower ∧ c.toLower ≤ 'f' then some (c.toLower.toNat - 'a'.toNat + 10)
      else none
    match value a, value b with
    | some x, some y =>
      if 16 * x + y < 128 then Char.ofNat (16 * x + y) :: decodeAscii rest
      else '%' :: decodeAscii (a :: b :: rest)
    | _, _ => '%' :: decodeAscii (a :: b :: rest)
  | c :: rest => c :: decodeAscii rest
  | [] => []

end TaggedSchema.Uri
