import TaggedSchema.Pointer

/-!
# Reports

What a validation finds: errors, each at a place of the instance and a place of the schema, in the
order in which they are found. A report in fail-fast mode is full after its first error and takes
no more.
-/

namespace TaggedSchema

/-- One thing that is wrong with an instance. -/
structure ValidationError where
  instanceLocation : Pointer
  schemaLocation : Pointer
  keyword : String
  message : String
deriving DecidableEq

namespace ValidationError

/-- The error in one line: where in the instance, what, and where in the schema. -/
def text (e : ValidationError) : String :=
  let place := if e.instanceLocation.isRoot then "(root)" else e.instanceLocation.text
  place ++ ": " ++ e.message ++ " [" ++ e.schemaLocation.text ++ "]"

/-- All errors, under a line with their number. -/
def textOfAll (errors : List ValidationError) : String :=
  Nat.repr errors.length ++ " validation error(s):\n"
    ++ "\n".intercalate (errors.map fun e => "  " ++ e.text)

/-- An error as a JSON value: a record of its four parts. -/
def toJson (e : ValidationError) : Json :=
  .ofMembers [("instanceLocation", e.instanceLocation.toJson),
    ("schemaLocation", e.schemaLocation.toJson), ("keyword", .string e.keyword),
    ("message", .string e.message)]

/-- The error that a JSON value holds. -/
def ofJson? (value : Json) : Option ValidationError :=
  match value.fields? ["instanceLocation", "schemaLocation", "keyword", "message"] with
  | some [instancePlace, schemaPlace, keyword, message] => do
    return ⟨← Pointer.ofJson? instancePlace, ← Pointer.ofJson? schemaPlace, ← keyword.string?,
      ← message.string?⟩
  | _ => none

end ValidationError

/-! ## 1. Collecting -/

/-- A report under way. -/
structure Report where
  failFast : Bool
  errors : List ValidationError
deriving DecidableEq

namespace Report

/-- A report without errors. -/
def empty (failFast : Bool) : Report := ⟨failFast, []⟩

/-- The number of errors. -/
def size (r : Report) : Nat := r.errors.length

/-- Whether there is no error. -/
def isEmpty (r : Report) : Bool := r.errors.isEmpty

/-- Whether further errors are dropped. -/
def isFull (r : Report) : Bool := r.failFast && !r.isEmpty

/-- Adds an error, unless the report is full. -/
def push (r : Report) (e : ValidationError) : Report :=
  if r.isFull then r else { r with errors := r.errors ++ [e] }

/-- Adds the errors of another report, in order. -/
def absorb (r other : Report) : Report := other.errors.foldl push r

/-- An empty report of the same mode, for something that may not count. -/
def scratch (r : Report) : Report := empty r.failFast

end Report

/-! ## 2. Outcomes -/

/-- The result of a validation. -/
structure Outcome where
  valid : Bool
  errors : List ValidationError
deriving DecidableEq

/-- The result a report amounts to. -/
def Report.outcome (r : Report) : Outcome := ⟨r.isEmpty, r.errors⟩

/-- A result as a JSON value: a record of the verdict and the errors. -/
def Outcome.toJson (o : Outcome) : Json :=
  .ofMembers [("valid", .bool o.valid), ("errors", .array (o.errors.map ValidationError.toJson))]

/-- The result that a JSON value holds. -/
def Outcome.ofJson? (value : Json) : Option Outcome :=
  match value.fields? ["valid", "errors"] with
  | some [valid, errors] => do
    return ⟨← valid.bool?, ← (← errors.items?).mapM ValidationError.ofJson?⟩
  | _ => none

/-- The errors of an instance that is not valid. -/
def Outcome.failure? (o : Outcome) : Option (List ValidationError) :=
  if o.valid then none else some o.errors

end TaggedSchema
