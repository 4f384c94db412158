import TaggedSchema.Keyword.Registry
import TaggedSchema.Options
import TaggedSchema.Program

/-!
# Compiling a graph

The nodes that the root reaches, not counting those under definitions unless a reference leads
there, are compiled in the order of a depth-first visit; the first fault is the answer. A cycle of
edges along which every evaluation would come back to the same place is a fault as well.
-/

namespace TaggedSchema

/-- How a graph is compiled: the plugins for keywords outside the core, and the options. -/
structure Compiler where
  registry : Registry
  options : Options

namespace Compiler

/-! ## 1. Keywords -/

/-- The fault of a keyword of the core that has a value it cannot have. -/
def invalid (n : Node) (keyword : CoreKeyword) (reason : String) : SchemaError :=
  ⟨n.location.join keyword.name, .invalidKeywordValue keyword.name reason⟩

/-- What resolution found for a keyword of the core. -/
def resolved {α : Type} (n : Node) (keyword : CoreKeyword) (found : Option α) :
    Except SchemaError α :=
  match found with
  | some a => .ok a
  | none =>
    .error ⟨n.location.join keyword.name,
      .malformed ("\"" ++ keyword.name ++ "\" was not resolved")⟩

/-- The strings of an array of strings. -/
def strings? (value : Json) : Option (List String) :=
  value.items?.bind fun items => items.mapM Json.string?

/-- The rule of a keyword of the core. `discriminator` asserts nothing itself: it makes `oneOf` a
    dispatch. -/
def coreRule (n : Node) (discriminator : Option Discriminator) (value : Json) :
    CoreKeyword → Except SchemaError (Option Rule)
  | .type => do return some (.type (← resolved n .type n.declaredTypes))
  | .const => .ok (some (.const value))
  | .enum =>
    match value with
    | .array items => .ok (some (.enum items))
    | _ => .error (invalid n .enum "must be an array")
  | .required =>
    match strings? value with
    | some names => .ok (some (.required names))
    | none => .error (invalid n .required "must be an array of strings")
  | .properties => do
    return some (.properties (← resolved n .properties (n.childMap? "properties")))
  | .ref => do return some (.ref (← resolved n .ref n.reference))
  | .allOf => do return some (.allOf (← resolved n .allOf (n.childList? "allOf")))
  | .anyOf => do return some (.anyOf (← resolved n .anyOf (n.childList? "anyOf")))
  | .oneOf => do
    let branches ← resolved n .oneOf (n.childList? "oneOf")
    match discriminator with
    | some d => return some (.dispatch d branches (n.declaredTypes == some [.object]))
    | none => return some (.oneOf branches)
  | .discriminator => .ok none

/-- The rule of a keyword that a plugin compiles. Without a plugin the keyword is ignored, or
    refused where that is the option. -/
def pluginRule (c : Compiler) (g : Graph) (id : NodeId) (n : Node) (name : String) (value : Json) :
    Except SchemaError (Option Rule) :=
  match c.registry.find? name with
  | some plugin => do return (← plugin ⟨name, value, id, n, g⟩).map Rule.assertion
  | none =>
    if c.options.strictKeywords then .error ⟨n.location.join name, .unknownKeyword name⟩
    else .ok none

/-- The rule of a keyword, if it asserts something. -/
def keywordRule (c : Compiler) (g : Graph) (id : NodeId) (n : Node)
    (discriminator : Option Discriminator) (name : String) (value : Json) :
    Except SchemaError (Option Rule) :=
  match CoreKeyword.ofName? name with
  | some core => coreRule n discriminator value core
  | none => if isAnnotationKeyword name then .ok none else c.pluginRule g id n name value

/-- The rules of keywords, in order. -/
def keywordRules (c : Compiler) (g : Graph) (id : NodeId) (n : Node)
    (discriminator : Option Discriminator) :
    List (String × Json) → Except SchemaError (List CompiledKeyword)
  | [] => .ok []
  | (name, value) :: rest => do
    let rule ← c.keywordRule g id n discriminator name value
    let rules ← keywordRules c g id n discriminator rest
    return (rule.map (⟨name, ·⟩)).toList ++ rules

/-! ## 2. Nodes -/

/-- The discriminator of a node, where it is honoured. -/
def discriminatorOf (c : Compiler) (g : Graph) (id : NodeId) (n : Node) :
    Except SchemaError (Option Discriminator) :=
  if c.options.discriminator && n.hasKeyword "discriminator" then do
    return some (← Discriminator.ofNode g id)
  else .ok none

/-- A compiled node. -/
def compileNode (c : Compiler) (g : Graph) (id : NodeId) (n : Node) :
    Except SchemaError CompiledNode :=
  match n.body with
  | .bool true => .ok (.inert n.location)
  | .bool false => .ok ⟨n.location, [⟨"false", .never⟩]⟩
  | .object keywords => do
    let discriminator ← c.discriminatorOf g id n
    return ⟨n.location, ← c.keywordRules g id n discriminator keywords⟩

/-- Compiled nodes by number, in the order of the visit. -/
def compileNodes (c : Compiler) (g : Graph) :
    List NodeId → Except SchemaError (List (NodeId × CompiledNode))
  | [] => .ok []
  | id :: rest =>
    match g.node? id with
    | none => compileNodes c g rest
    | some n => do
      let node ← c.compileNode g id n
      let nodes ← compileNodes c g rest
      return (id, node) :: nodes

/-! ## 3. Graphs -/

/-- The nodes that a compiled node can evaluate, in the order in which they are visited: the
    reference first, then the children from the last to the first, except definitions. -/
def edges (g : Graph) (id : NodeId) : List NodeId :=
  match g.node? id with
  | some n =>
    (((n.children.filter fun entry => !isDefinitions entry.1).flatMap (·.2.ids))
      ++ n.reference.toList).reverse
  | none => []

/-- The nodes that are compiled, in the order of the visit. -/
def reached (g : Graph) (root : NodeId) : List NodeId := g.reach (edges g) [root]

/-- The program of a graph, from a root. -/
def compile (c : Compiler) (g : Graph) (root : NodeId) : Except SchemaError Program := do
  let order := reached g root
  let compiled ← c.compileNodes g order
  match g.inPlaceCycle (g.ids.filter order.contains) with
  | some closing => .error ⟨g.location closing, .unboundedRecursion⟩
  | none =>
    let nodes := g.ids.map fun id =>
      match compiled.lookup id with
      | some node => node
      | none => .inert (g.location id)
    return ⟨nodes.toArray, root, c.options.failFast, c.options.maxDepth⟩

end Compiler

end TaggedSchema
