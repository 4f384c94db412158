import TaggedSchema.Keyword.Check
import TaggedSchema.Keyword.Registry

/-!
# The built-in keywords

How the keywords of the default registry are compiled: each reads its value, its subschemas and the
siblings it works with, and becomes a check, or nothing where another keyword does its work.
-/

namespace TaggedSchema

variable [Pattern.Library]

namespace Builtin

/-! ## 1. Values of keywords -/

/-- The natural number of 64 bits that a value is, in integer or float representation. A float has to
    lie below the greatest of these numbers as floats have it, which is `2 ^ 64`. -/
def asCount? (value : Json) : Option Nat :=
  match value.number? with
  | none => none
  | some n =>
    match n.unsigned? with
    | some count => some count
    | none =>
      let x := n.toBinary64
      if 0 ≤ x.units ∧ x.isIntegral = true ∧ x.units < (Binary64.ofNat (2 ^ 64 - 1)).units then
        some x.clamp64
      else none

/-- The reason given for a value that is no count. -/
def notACount : String := "must be a non-negative integer"

/-- The value of the keyword as a count. -/
def count (o : Occurrence) : Except SchemaError Nat :=
  match asCount? o.value with
  | some n => .ok n
  | none => .error (o.invalid notACount)

/-- The value of a sibling as a count, if the sibling is present. -/
def siblingCount (o : Occurrence) (name : String) : Except SchemaError (Option Nat) :=
  match o.sibling? name with
  | none => .ok none
  | some value =>
    match asCount? value with
    | some n => .ok (some n)
    | none => .error ⟨o.node.location.join name, .invalidKeywordValue name notACount⟩

/-- The value of the keyword as a number. -/
def number (o : Occurrence) : Except SchemaError Number :=
  match o.value with
  | .number n => .ok n
  | _ => .error (o.invalid "must be a number")

/-- What is said about a text that is no pattern. -/
def notAPattern (reason : String) : String := "is not a valid regular expression: " ++ reason

/-- A key of `patternProperties` as a pattern. -/
def keyPattern (o : Occurrence) (text : String) : Except SchemaError NamedPattern :=
  match Pattern.Library.read text with
  | .ok isMatch => .ok ⟨text, isMatch⟩
  | .error reason =>
    .error ⟨o.node.location.join "patternProperties",
      .invalidKeywordValue "patternProperties"
        ("pattern \"" ++ text ++ "\" " ++ notAPattern reason)⟩

/-! ## 2. Keywords -/

/-- A keyword whose work a sibling does. -/
def passive (_ : Occurrence) : Except SchemaError (Option Check) := .ok none

/-- `not`: the subschema must not hold. -/
def not (o : Occurrence) : Except SchemaError (Option Check) := do
  return some (.not (← o.subschema))

/-- `if`, with `then` and `else` beside it; with neither of them it checks nothing. -/
def conditional (o : Occurrence) : Except SchemaError (Option Check) := do
  let condition ← o.subschema
  match o.node.child? "then", o.node.child? "else" with
  | none, none => return none
  | positive, negative => return some (.conditional condition positive negative)

/-- `items`: one schema for the items behind those of `prefixItems`, or one for each position. -/
def items (o : Occurrence) : Except SchemaError (Option Check) :=
  match o.children? with
  | some (.single schema) =>
    .ok (some (.items schema ((o.node.childList? "prefixItems").getD []).length))
  | some (.list schemas) => .ok (some (.tuple schemas (o.node.child? "additionalItems")))
  | _ => .error (o.invalid "must be a schema or an array of schemas")

/-- `prefixItems`: a schema for each of the first positions. -/
def leadingItems (o : Occurrence) : Except SchemaError (Option Check) := do
  return some (.leadingItems (← o.subschemas))

/-- `contains`, with `minContains` and `maxContains` beside it. -/
def contains (o : Occurrence) : Except SchemaError (Option Check) := do
  let least ← siblingCount o "minContains"
  let most ← siblingCount o "maxContains"
  return some (.contains (← o.subschema) (least.getD 1) most)

/-- `additionalProperties`: the members that neither `properties` nor `patternProperties` names. -/
def additionalProperties (o : Occurrence) : Except SchemaError (Option Check) := do
  let schema ← o.subschema
  let known := ((o.node.childMap? "properties").getD []).map (·.1)
  let patterns ← ((o.node.childMap? "patternProperties").getD []).mapM fun entry =>
    keyPattern o entry.1
  let forbidden := ((o.graph.node? schema).bind Node.bool?) == some false
  return some (.additionalProperties schema forbidden known patterns)

/-- `patternProperties`: a schema for the members each pattern matches. -/
def patternProperties (o : Occurrence) : Except SchemaError (Option Check) := do
  let entries ← o.subschemaMap
  let read ← entries.mapM fun entry => do return (← keyPattern o entry.1, entry.2)
  return some (.patternProperties read)

/-- `propertyNames`: a schema for the names of members. -/
def propertyNames (o : Occurrence) : Except SchemaError (Option Check) := do
  return some (.propertyNames (← o.subschema))

/-- `dependentSchemas`: a schema for objects that have a property. -/
def dependentSchemas (o : Occurrence) : Except SchemaError (Option Check) := do
  return some (.dependentSchemas (← o.subschemaMap))

/-- A limit on numbers. -/
def bound (comparison : Comparison) (o : Occurrence) : Except SchemaError (Option Check) := do
  let limit ← number o
  return some (.bound comparison limit.toBinary64 o.value.text)

/-- `multipleOf`: a divisor greater than zero. -/
def multipleOf (o : Occurrence) : Except SchemaError (Option Check) := do
  let divisor ← number o
  if divisor.toBinary64.units ≤ 0 then .error (o.invalid "must be greater than 0")
  else return some (.multipleOf divisor o.value.text)

/-- A limit on the length of strings. -/
def length (limit : Nat → Limit) (o : Occurrence) : Except SchemaError (Option Check) := do
  return some (.length (limit (← count o)))

/-- `pattern`: a pattern for strings. -/
def pattern (o : Occurrence) : Except SchemaError (Option Check) :=
  match o.value with
  | .string text =>
    match Pattern.Library.read text with
    | .ok isMatch => .ok (some (.pattern ⟨text, isMatch⟩))
    | .error reason => .error (o.invalid (notAPattern reason))
  | _ => .error (o.invalid "must be a string")

/-- `format`: a name, which is not checked. -/
def format (o : Occurrence) : Except SchemaError (Option Check) :=
  match o.value with
  | .string _ => .ok none
  | _ => .error (o.invalid "must be a string")

/-- A limit on the number of items. -/
def itemCount (limit : Nat → Limit) (o : Occurrence) : Except SchemaError (Option Check) := do
  return some (.itemCount (limit (← count o)))

/-- A limit on the number of properties. -/
def propertyCount (limit : Nat → Limit) (o : Occurrence) : Except SchemaError (Option Check) := do
  return some (.propertyCount (limit (← count o)))

/-- `uniqueItems`: no two items are equal. -/
def uniqueItems (o : Occurrence) : Except SchemaError (Option Check) :=
  match o.value with
  | .bool true => .ok (some .uniqueItems)
  | .bool false => .ok none
  | _ => .error (o.invalid "must be a boolean")

/-! ## 3. The default registry -/

/-- The built-in keywords. -/
def keywords : List (String × (Occurrence → Except SchemaError (Option Check))) :=
  [("not", not), ("items", items), ("prefixItems", leadingItems), ("additionalItems", passive),
    ("contains", contains), ("minContains", passive), ("maxContains", passive),
    ("additionalProperties", additionalProperties), ("patternProperties", patternProperties),
    ("propertyNames", propertyNames), ("dependentSchemas", dependentSchemas),
    ("if", conditional), ("then", passive), ("else", passive), ("minimum", bound .atLeast),
    ("maximum", bound .atMost), ("exclusiveMinimum", bound .above),
    ("exclusiveMaximum", bound .below), ("multipleOf", multipleOf),
    ("minLength", length .least), ("maxLength", length .most), ("pattern", pattern),
    ("format", format), ("minItems", itemCount .least), ("maxItems", itemCount .most),
    ("minProperties", propertyCount .least), ("maxProperties", propertyCount .most),
    ("uniqueItems", uniqueItems)]

/-- A built-in keyword as a plugin. -/
def plugin (compile : Occurrence → Except SchemaError (Option Check)) : Plugin :=
  fun o => do return (← compile o).map Check.run

end Builtin

/-- The registry of the built-in keywords. -/
def Registry.default : Registry :=
  ⟨Builtin.keywords.map fun entry => (entry.1, Builtin.plugin entry.2)⟩

end TaggedSchema
