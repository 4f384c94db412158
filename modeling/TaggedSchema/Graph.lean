import TaggedSchema.InstanceType
import TaggedSchema.Pointer
import TaggedSchema.Vocabulary

/-!
# Schema graphs

A schema in its resolved form: one node for each subschema that is reached, with its children by
keyword and the target of its reference as numbers of other nodes. Nodes are numbered in the order
in which they are found.
-/

namespace TaggedSchema

/-- The number of a node. -/
abbrev NodeId := Nat

/-- A schema as it is written: a boolean, or the keywords of an object. -/
inductive SchemaBody where
  | bool (value : Bool)
  | object (keywords : List (String × Json))

/-- The subschemas under one keyword. -/
inductive Children where
  | single (id : NodeId)
  | list (ids : List NodeId)
  | map (entries : List (String × NodeId))
deriving DecidableEq

/-- All the nodes, in order. -/
def Children.ids : Children → List NodeId
  | .single id => [id]
  | .list ids => ids
  | .map entries => entries.map (·.2)

/-- One subschema: where it is, how it is written, and where it leads. -/
structure Node where
  location : Location
  body : SchemaBody
  declaredTypes : Option (List InstanceType)
  children : List (String × Children)
  reference : Option NodeId

namespace Node

/-- The truth value of a boolean schema. -/
def bool? (n : Node) : Option Bool :=
  match n.body with
  | .bool b => some b
  | .object _ => none

/-- The keywords and their values, in key order. -/
def keywords (n : Node) : List (String × Json) :=
  match n.body with
  | .bool _ => []
  | .object keywords => keywords

/-- The value of a keyword. -/
def keyword? (n : Node) (name : String) : Option Json := n.keywords.lookup name

/-- Whether the keyword is present. -/
def hasKeyword (n : Node) (name : String) : Bool := (n.keyword? name).isSome

/-- The subschemas under a keyword. -/
def children? (n : Node) (name : String) : Option Children := n.children.lookup name

/-- The one subschema under a keyword. -/
def child? (n : Node) (name : String) : Option NodeId :=
  match n.children? name with
  | some (.single id) => some id
  | _ => none

/-- The list of subschemas under a keyword. -/
def childList? (n : Node) (name : String) : Option (List NodeId) :=
  match n.children? name with
  | some (.list ids) => some ids
  | _ => none

/-- The named subschemas under a keyword. -/
def childMap? (n : Node) (name : String) : Option (List (String × NodeId)) :=
  match n.children? name with
  | some (.map entries) => some entries
  | _ => none

/-- The subschema of a property. -/
def property? (n : Node) (name : String) : Option NodeId :=
  (n.childMap? "properties").bind fun entries => entries.lookup name

/-- Whether the node itself requires a property. -/
def requires (n : Node) (name : String) : Bool :=
  match (n.keyword? "required").bind Json.items? with
  | some items => items.any fun item => item.string? == some name
  | none => false

/-- Whether the node is a reference and nothing else but annotations. -/
def isPureReference (n : Node) : Bool :=
  n.hasKeyword "$ref" && n.keywords.all fun k => k.1 == "$ref" || isAnnotationKeyword k.1

/-- All nodes that the node leads to: its children in order, then the target of its reference. -/
def successors (n : Node) : List NodeId :=
  n.children.flatMap (·.2.ids) ++ n.reference.toList

end Node

/-- A resolved schema. -/
structure Graph where
  nodes : Array Node
  root : NodeId

namespace Graph

/-- The node of a number. -/
def node? (g : Graph) (id : NodeId) : Option Node := g.nodes[id]?

/-- The number of nodes. -/
def size (g : Graph) : Nat := g.nodes.size

/-- The node at a location. -/
def find? (g : Graph) (location : Location) : Option NodeId :=
  g.nodes.findIdx? fun n => n.location == location

/-- The numbers of all nodes. -/
def ids (g : Graph) : List NodeId := List.range g.size

/-- The references: from each node that has one, to its target. -/
def referenceEdges (g : Graph) : List (NodeId × NodeId) :=
  g.ids.filterMap fun id => ((g.node? id).bind (·.reference)).map (id, ·)

end Graph

end TaggedSchema
