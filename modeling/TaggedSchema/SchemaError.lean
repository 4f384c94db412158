import TaggedSchema.Pointer
import TaggedSchema.Tag

/-!
# Faults of a schema

A schema is refused for one cause at one location. The causes of resolution (`ResolutionError`)
arise while references are followed, the others (`Fault`) when the resolved schema is compiled;
every cause has a kind, by which it is classified, and one message.
-/

namespace TaggedSchema

/-! ## 1. Resolution -/

/-- Why the documents of a schema do not make a graph. -/
inductive ResolutionError where
  | danglingReference (source : Location) (reference : String) (target : Location)
  | unknownDocument (document : String)
  | malformed (location : Location) (keyword : String) (reason : String)
deriving DecidableEq

namespace ResolutionError

/-- What is said about it. -/
def message : ResolutionError → String
  | danglingReference source reference target =>
    "dangling reference \"" ++ reference ++ "\" at " ++ source.text ++ ": nothing at "
      ++ target.text
  | unknownDocument document => "unknown document \"" ++ document ++ "\""
  | malformed location keyword reason =>
    "malformed \"" ++ keyword ++ "\" at " ++ location.text ++ ": " ++ reason

/-- Where the fault lies. -/
def location : ResolutionError → Location
  | danglingReference source _ _ => source
  | unknownDocument document => .ofDocument document
  | malformed location _ _ => location

end ResolutionError

/-! ## 2. Kinds and causes -/

/-- The classes of faults. -/
inductive FaultKind where
  | danglingReference
  | malformedSchema
  | missingOneOf
  | invalidDiscriminator
  | missingTagProperty
  | missingTagConstraint
  | invalidTagType
  | duplicateTagValue
  | tagNotRequired
  | unknownKeyword
  | cyclicDiscriminator
  | cyclicReference
  | invalidKeywordValue
deriving DecidableEq

namespace FaultKind

/-- All kinds. -/
def all : List FaultKind :=
  [danglingReference, malformedSchema, missingOneOf, invalidDiscriminator, missingTagProperty,
    missingTagConstraint, invalidTagType, duplicateTagValue, tagNotRequired, unknownKeyword,
    cyclicDiscriminator, cyclicReference, invalidKeywordValue]

/-- The name of a kind. -/
def name : FaultKind → String
  | danglingReference => "dangling_reference"
  | malformedSchema => "malformed_schema"
  | missingOneOf => "missing_one_of"
  | invalidDiscriminator => "invalid_discriminator"
  | missingTagProperty => "missing_tag_property"
  | missingTagConstraint => "missing_tag_constraint"
  | invalidTagType => "invalid_tag_type"
  | duplicateTagValue => "duplicate_tag_value"
  | tagNotRequired => "tag_not_required"
  | unknownKeyword => "unknown_keyword"
  | cyclicDiscriminator => "cyclic_discriminator"
  | cyclicReference => "cyclic_reference"
  | invalidKeywordValue => "invalid_keyword_value"

/-- The kind of that name. -/
def ofName? (text : String) : Option FaultKind := all.find? fun kind => kind.name == text

/-- The kind that a JSON value holds: its name, or a record with that name for its only field, which
    is null. -/
def ofJson? : Json → Option FaultKind
  | .string text => ofName? text
  | .object [(text, .null)] => ofName? text
  | _ => none

end FaultKind

/-- Why a schema is refused. -/
inductive Fault where
  | resolution (error : ResolutionError)
  | missingOneOf
  | invalidDiscriminator (reason : String)
  | missingTagProperty (property : String)
  | missingTagConstraint (property : String)
  | invalidTagType (property : String)
  | duplicateTagValue (property : String) (tag : Tag)
  | tagNotRequired (property : String)
  | cyclicDiscriminator (property : String)
  | cyclicReference
  | unboundedRecursion
  | unknownKeyword (keyword : String)
  | invalidKeywordValue (keyword : String) (reason : String)
  | malformed (reason : String)
deriving DecidableEq

namespace Fault

/-- The class of a cause. -/
def kind : Fault → FaultKind
  | resolution (.danglingReference ..) => .danglingReference
  | resolution (.unknownDocument ..) => .danglingReference
  | resolution (.malformed ..) => .malformedSchema
  | missingOneOf => .missingOneOf
  | invalidDiscriminator _ => .invalidDiscriminator
  | missingTagProperty _ => .missingTagProperty
  | missingTagConstraint _ => .missingTagConstraint
  | invalidTagType _ => .invalidTagType
  | duplicateTagValue _ _ => .duplicateTagValue
  | tagNotRequired _ => .tagNotRequired
  | cyclicDiscriminator _ => .cyclicDiscriminator
  | cyclicReference => .cyclicReference
  | unboundedRecursion => .cyclicReference
  | unknownKeyword _ => .unknownKeyword
  | invalidKeywordValue _ _ => .invalidKeywordValue
  | malformed _ => .malformedSchema

/-- What is said about a cause. -/
def message : Fault → String
  | resolution error => error.message
  | missingOneOf => "discriminator: requires oneOf keyword"
  | invalidDiscriminator reason => "discriminator: " ++ reason
  | missingTagProperty property =>
    "discriminator: oneOf subschemas (or referenced schemas) must have \"properties/" ++ property
      ++ "\""
  | missingTagConstraint property =>
    "discriminator: \"properties/" ++ property ++ "\" must have \"const\" or \"enum\""
  | invalidTagType property =>
    "discriminator: \"" ++ property
      ++ "\" values must be unique strings, numbers or booleans (invalid tag type)"
  | duplicateTagValue property tag =>
    "discriminator: \"" ++ property ++ "\" values must be unique strings, numbers or booleans ("
      ++ tag.typeName ++ " " ++ tag.text ++ " is declared more than once)"
  | tagNotRequired property => "discriminator: \"" ++ property ++ "\" must be required"
  | cyclicDiscriminator property =>
    "discriminator: \"" ++ property ++ "\" branch references its own oneOf"
  | cyclicReference => "$ref chain loops without reaching a schema"
  | unboundedRecursion => "$ref loops back to this schema without descending into the instance"
  | unknownKeyword keyword => "strict mode: unknown keyword: \"" ++ keyword ++ "\""
  | invalidKeywordValue keyword reason => "\"" ++ keyword ++ "\" " ++ reason
  | malformed reason => reason

end Fault

/-! ## 3. Faults in place -/

/-- A cause at a location. -/
structure SchemaError where
  location : Location
  fault : Fault
deriving DecidableEq

namespace SchemaError

/-- The class of the cause. -/
def kind (e : SchemaError) : FaultKind := e.fault.kind

/-- What is said about the cause. -/
def message (e : SchemaError) : String := e.fault.message

/-- The message and where it applies. -/
def text (e : SchemaError) : String := e.message ++ " (at " ++ e.location.text ++ ")"

/-- A fault of resolution, at the location it names. -/
def ofResolution (e : ResolutionError) : SchemaError := ⟨e.location, .resolution e⟩

end SchemaError

end TaggedSchema
