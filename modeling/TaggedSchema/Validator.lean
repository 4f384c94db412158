import TaggedSchema.Uri.Reader
import TaggedSchema.Yaml.Reader
import TaggedSchema.Pattern.Reader
import TaggedSchema.Graph.Resolution
import TaggedSchema.Keyword.Builtin
import TaggedSchema.Program.Compilation
import TaggedSchema.Program.Evaluation

/-!
# Validators

The library in use: a schema document, or a document of a store, becomes a validator, and the
validator judges instances. A fault of resolution is a fault of the schema like any other.

Nothing here depends on which libraries of URLs, of YAML and of patterns are at hand; whoever has
none of their own gets the readers that come with this one.
-/

namespace TaggedSchema

/-- A compiled schema, ready for use. -/
structure Validator where
  program : Program

namespace Compiler

/-- The compiler of the built-in keywords. -/
def builtin [Pattern.Library] (options : Options) : Compiler := ⟨.default, options⟩

/-- A graph and its program, from the root of the graph. -/
def validatorOf (c : Compiler) (g : Except ResolutionError Graph) : Except SchemaError Validator :=
  match g with
  | .error e => .error (.ofResolution e)
  | .ok g => do return ⟨← c.compile g g.root⟩

/-- The validator of a document on its own. -/
def compileDocument [Uri.Library] (c : Compiler) (schema : Json) : Except SchemaError Validator :=
  c.validatorOf (Graph.ofDocument schema)

/-- The validator of a document of a store. -/
def compileStore [Uri.Library] (c : Compiler) (store : Store) (root : String) :
    Except SchemaError Validator :=
  c.validatorOf (Graph.resolve store root)

end Compiler

namespace Validator

/-- The result of an instance. -/
def validate (v : Validator) (value : Json) : Outcome :=
  (v.program.report v.program.failFast value).outcome

/-- The result of an instance, with notes observed. -/
def validateIn {m : Type → Type} [Monad m] (observe : String → m Unit) (v : Validator)
    (value : Json) : m Outcome := do
  return (← v.program.reportIn observe v.program.failFast value).outcome

/-- Whether an instance is valid. One error is enough to answer. -/
def isValid (v : Validator) (value : Json) : Bool := (v.program.report true value).isEmpty

/-- Where the root of the schema is. -/
def rootLocation? (v : Validator) : Option Location :=
  v.program.nodes[v.program.root]?.map (·.location)

end Validator

/-- The validator of a document, with the built-in keywords and the default options. -/
def compile [Uri.Library] [Pattern.Library] (schema : Json) : Except SchemaError Validator :=
  (Compiler.builtin .default).compileDocument schema

/-- The validator of a document, with the built-in keywords. -/
def compileWith [Uri.Library] [Pattern.Library] (options : Options) (schema : Json) :
    Except SchemaError Validator :=
  (Compiler.builtin options).compileDocument schema

end TaggedSchema
