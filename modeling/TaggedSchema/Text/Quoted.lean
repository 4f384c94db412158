import TaggedSchema.Text.Addition

/-!
# Quoted text

A text in double quotes, as a message shows it: the quote, the backslash and the usual control
characters are escaped by a letter, and every other character that does not print, that is ignored
in print, or that would join the character before it, by its code point.
-/

namespace TaggedSchema.Text

/-- The characters with a shape of their own: printing ones that neither join the one before them
    nor may be left out. -/
def standing : List Range :=
  difference
    (laterCategories ["Lu", "Ll", "Lt", "Lm", "Lo", "Mc", "Nd", "Nl", "No", "Pc", "Pd", "Ps", "Pe",
      "Pi", "Pf", "Po", "Sm", "Sc", "Sk", "So"])
    (union graphemeExtend defaultIgnorable)

/-- Whether a character is shown as it is. -/
def isShown (c : Char) : Bool := c = ' ' || inRanges standing c.toNat

/-- The lower-case hexadecimal digits of a number. -/
def hexText (n : Nat) : List Char := Nat.toDigits 16 n

/-- A character inside the quotes. -/
def quoteChar (c : Char) : List Char :=
  if c = '"' then ['\\', '"']
  else if c = '\\' then ['\\', '\\']
  else if c = '\n' then ['\\', 'n']
  else if c = '\r' then ['\\', 'r']
  else if c = '\t' then ['\\', 't']
  else if c.toNat = 0 then ['\\', '0']
  else if isShown c then [c]
  else ['\\', 'u', '\x7b'] ++ hexText c.toNat ++ ['\x7d']

/-- The text in quotes. -/
def quote (s : String) : String := String.ofList ('"' :: s.toList.flatMap quoteChar ++ ['"'])

end TaggedSchema.Text
