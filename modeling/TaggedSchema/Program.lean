import TaggedSchema.Discriminator
import TaggedSchema.Keyword.Dialogue

/-!
# Compiled programs

A program has one node for each node of the schema graph, under the same number. A compiled node is
a list of rules, one for each keyword that asserts something; a node that the root does not reach
has none.
-/

namespace TaggedSchema

/-- What a keyword asserts. -/
inductive Rule where
  /-- The `false` schema. -/
  | never
  | type (types : List InstanceType)
  | const (value : Json)
  | enum (values : List Json)
  | required (names : List String)
  | properties (entries : List (String × NodeId))
  | ref (target : NodeId)
  | allOf (schemas : List NodeId)
  | anyOf (schemas : List NodeId)
  /-- Every branch is tried, and exactly one has to hold. -/
  | oneOf (branches : List NodeId)
  /-- The tag selects the branch that has to hold. `typeChecked` says that the node's own `type`
      already reports whatever is no object. -/
  | dispatch (discriminator : Discriminator) (branches : List NodeId) (typeChecked : Bool)
  | assertion (run : Assertion)

/-- A rule under the name of its keyword. -/
structure CompiledKeyword where
  name : String
  rule : Rule

/-- A compiled schema. -/
structure CompiledNode where
  location : Location
  keywords : List CompiledKeyword

/-- A node that asserts nothing. -/
def CompiledNode.inert (location : Location) : CompiledNode := ⟨location, []⟩

/-- A compiled schema graph, with the mode of its reports and the greatest number of nested
    evaluations at one place of the instance. -/
structure Program where
  nodes : Array CompiledNode
  root : NodeId
  failFast : Bool
  maxDepth : Nat

end TaggedSchema
