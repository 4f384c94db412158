import TaggedSchema.Json.Text

/-!
# Tags

A tag is a string, a boolean or a number, as the discriminating property of a tagged value holds it.
Tags are the keys of dispatch: a number is kept in its least form (`Number.leastForm`: the 64-bit
integer it is, if it is one), so two numbers of one value are one tag however they are written.
-/

namespace TaggedSchema

/-- The 64-bit integer a number is, if it is one, and otherwise the number itself. -/
def Number.leastForm (n : Number) : Number :=
  ((n.toInt?.bind ofInt?)).getD n

/-- A discriminating value. -/
inductive Tag where
  | string (value : String)
  | number (value : Number)
  | bool (value : Bool)
deriving DecidableEq

namespace Tag

/-- The tag a value is; `null`, arrays and objects are none. -/
def ofJson? : Json → Option Tag
  | .string s => some (.string s)
  | .number n => some (.number n.leastForm)
  | .bool b => some (.bool b)
  | _ => none

/-- The value a tag stands for. -/
def toJson : Tag → Json
  | .string s => .string s
  | .number n => .number n
  | .bool b => .bool b

/-- The name of the tag's type. -/
def typeName : Tag → String
  | .string _ => "string"
  | .number _ => "number"
  | .bool _ => "boolean"

/-- JSON text. -/
def text (t : Tag) : String := t.toJson.text

end Tag

end TaggedSchema
