import TaggedSchema.Json

/-!
# Compact JSON text

The text of a value: no spaces, members in key order. A string escapes the quote, the backslash and
the control characters below `0x20`, and writes everything else as it is.
-/

namespace TaggedSchema.Json

/-- A hexadecimal digit, lower case. -/
def hexDigit (n : Nat) : Char := (Nat.digitChar (n % 16))

/-- A character inside a string. -/
def escapeChar (c : Char) : List Char :=
  if c = '"' then ['\\', '"']
  else if c = '\\' then ['\\', '\\']
  else if c = '\n' then ['\\', 'n']
  else if c = '\r' then ['\\', 'r']
  else if c = '\t' then ['\\', 't']
  else if c.toNat = 8 then ['\\', 'b']
  else if c.toNat = 12 then ['\\', 'f']
  else if c.toNat < 32 then ['\\', 'u', '0', '0', hexDigit (c.toNat / 16), hexDigit c.toNat]
  else [c]

/-- A string in quotes. -/
def quoted (s : String) : String := String.ofList ('"' :: s.toList.flatMap escapeChar ++ ['"'])

mutual

/-- The compact text of a value. -/
def text : Json → String
  | .null => "null"
  | .bool b => if b then "true" else "false"
  | .number n => n.text
  | .string s => quoted s
  | .array items => "[" ++ textOfItems items ++ "]"
  | .object members => "\x7b" ++ textOfMembers members ++ "\x7d"
termination_by structural value => value

/-- Items, separated by commas. -/
def textOfItems : List Json → String
  | [] => ""
  | [item] => item.text
  | item :: rest => item.text ++ "," ++ textOfItems rest
termination_by structural items => items

/-- Members, separated by commas. -/
def textOfMembers : List (String × Json) → String
  | [] => ""
  | [(key, value)] => quoted key ++ ":" ++ value.text
  | (key, value) :: rest => quoted key ++ ":" ++ value.text ++ "," ++ textOfMembers rest
termination_by structural members => members

end

end TaggedSchema.Json
