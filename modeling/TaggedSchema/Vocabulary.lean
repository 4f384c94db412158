/-!
# The keyword vocabulary

A keyword is read in two independent ways. For compilation it is one of the core keywords, an
annotation, or a name to look up in a registry. For resolution it may hold subschemas, in one of
four shapes, whether or not anything checks it.
-/

namespace TaggedSchema

/-- The keywords the compiler handles itself. -/
inductive CoreKeyword where
  | type
  | const
  | enum
  | required
  | properties
  | ref
  | allOf
  | anyOf
  | oneOf
  | discriminator
deriving DecidableEq

namespace CoreKeyword

/-- All core keywords. -/
def all : List CoreKeyword :=
  [type, const, enum, required, properties, ref, allOf, anyOf, oneOf, discriminator]

/-- The name a schema writes. -/
def name : CoreKeyword → String
  | type => "type"
  | const => "const"
  | enum => "enum"
  | required => "required"
  | properties => "properties"
  | ref => "$ref"
  | allOf => "allOf"
  | anyOf => "anyOf"
  | oneOf => "oneOf"
  | discriminator => "discriminator"

/-- The core keyword of that name. -/
def ofName? (text : String) : Option CoreKeyword := all.find? fun keyword => keyword.name == text

end CoreKeyword

/-- The keywords that never assert anything. -/
def annotations : List String :=
  ["$schema", "$id", "$comment", "$anchor", "$vocabulary", "title", "description", "default",
    "examples", "deprecated", "readOnly", "writeOnly", "definitions", "$defs"]

/-- Whether the keyword never asserts anything. -/
def isAnnotationKeyword (name : String) : Bool := annotations.contains name

/-- Whether the subschemas under the keyword are reached through references only. -/
def isDefinitions (name : String) : Bool := name == "definitions" || name == "$defs"

/-- The shape of a keyword that holds subschemas. -/
inductive Structure where
  | single
  | list
  | map
  | singleOrList
deriving DecidableEq

namespace Structure

/-- The keywords that hold subschemas, by shape. -/
def table : List (String × Structure) :=
  [("properties", map), ("patternProperties", map), ("definitions", map), ("$defs", map),
    ("dependentSchemas", map), ("allOf", list), ("anyOf", list), ("oneOf", list),
    ("prefixItems", list), ("additionalItems", single), ("additionalProperties", single),
    ("not", single), ("if", single), ("then", single), ("else", single), ("contains", single),
    ("propertyNames", single), ("items", singleOrList)]

/-- The shape of a keyword, `none` if it holds no subschemas. -/
def of? (name : String) : Option Structure := table.lookup name

end Structure

end TaggedSchema
