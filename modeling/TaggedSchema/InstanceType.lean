import TaggedSchema.Json

/-!
# The type names of a schema

Six types partition the values; `integer` is the seventh name, for the numbers without a fractional
part in either representation.
-/

namespace TaggedSchema

/-- A type name. -/
inductive InstanceType where
  | null
  | boolean
  | object
  | array
  | number
  | integer
  | string
deriving DecidableEq

namespace InstanceType

/-- All type names. -/
def all : List InstanceType := [null, boolean, object, array, number, integer, string]

/-- The name a schema writes. -/
def name : InstanceType → String
  | null => "null"
  | boolean => "boolean"
  | object => "object"
  | array => "array"
  | number => "number"
  | integer => "integer"
  | string => "string"

/-- The type of that name. -/
def ofName? (text : String) : Option InstanceType := all.find? fun type => type.name == text

/-- What is said about a text that names no type. -/
def unknownName (text : String) : String := "unknown type name \"" ++ text ++ "\""

/-- The one type of a value that is not `integer`. -/
def of : Json → InstanceType
  | .null => null
  | .bool _ => boolean
  | .number _ => number
  | .string _ => string
  | .array _ => array
  | .object _ => object

/-- Whether a value is of the type. -/
def accepts (type : InstanceType) (value : Json) : Bool :=
  match type, value with
  | integer, .number n => n.isIntegral
  | integer, _ => false
  | type, value => type == of value

/-- The types a `type` keyword lists: one name, or an array of names. -/
def declared? : Json → Option (List InstanceType)
  | .string text => (ofName? text).map ([·])
  | .array items => items.mapM fun item => item.string?.bind ofName?
  | _ => none

end InstanceType

end TaggedSchema
