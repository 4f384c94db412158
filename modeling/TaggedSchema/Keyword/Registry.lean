import TaggedSchema.Keyword.Dialogue
import TaggedSchema.SchemaError

/-!
# Keyword registries

Which keywords outside the core are known, and how each is compiled. A plugin sees one occurrence of
its keyword in its place in the graph (`Occurrence`), and answers with what the keyword does, with
nothing, or with a fault of the schema. Registering a name again replaces its plugin.
-/

namespace TaggedSchema

/-- One occurrence of a keyword. -/
structure Occurrence where
  keyword : String
  value : Json
  id : NodeId
  node : Node
  graph : Graph

namespace Occurrence

/-- Where the keyword stands. -/
def location (o : Occurrence) : Location := o.node.location.join o.keyword

/-- The value of another keyword of the same schema. -/
def sibling? (o : Occurrence) (name : String) : Option Json := o.node.keyword? name

/-- The subschemas under the keyword. -/
def children? (o : Occurrence) : Option Children := o.node.children? o.keyword

/-- The fault of a value the keyword cannot have. -/
def invalid (o : Occurrence) (reason : String) : SchemaError :=
  ⟨o.location, .invalidKeywordValue o.keyword reason⟩

/-- The one subschema under the keyword. -/
def subschema (o : Occurrence) : Except SchemaError NodeId :=
  match o.node.child? o.keyword with
  | some id => .ok id
  | none => .error (o.invalid "must be a schema")

/-- The list of subschemas under the keyword. -/
def subschemas (o : Occurrence) : Except SchemaError (List NodeId) :=
  match o.node.childList? o.keyword with
  | some ids => .ok ids
  | none => .error (o.invalid "must be an array of schemas")

/-- The named subschemas under the keyword. -/
def subschemaMap (o : Occurrence) : Except SchemaError (List (String × NodeId)) :=
  match o.node.childMap? o.keyword with
  | some entries => .ok entries
  | none => .error (o.invalid "must be an object of schemas")

end Occurrence

/-- How the occurrences of a keyword are compiled. -/
abbrev Plugin := Occurrence → Except SchemaError (Option Assertion)

/-- The known keywords and their plugins. -/
structure Registry where
  plugins : List (String × Plugin)

namespace Registry

/-- No keywords. -/
def empty : Registry := ⟨[]⟩

/-- The plugin of a keyword. -/
def find? (r : Registry) (name : String) : Option Plugin := r.plugins.lookup name

/-- Whether the keyword is known. -/
def contains (r : Registry) (name : String) : Bool := (r.find? name).isSome

/-- The registry without a keyword. -/
def unregister (r : Registry) (name : String) : Registry :=
  ⟨r.plugins.filter fun entry => !(entry.1 == name)⟩

/-- The registry with a plugin for a keyword, in the place of an earlier one. -/
def register (r : Registry) (name : String) (plugin : Plugin) : Registry :=
  ⟨(name, plugin) :: (r.unregister name).plugins⟩

/-- The names of the known keywords, in order. -/
def names (r : Registry) : List String := (r.plugins.map (·.1)).mergeSort fun a b => a ≤ b

end Registry

end TaggedSchema
