import TaggedSchema.DispatchTable
import TaggedSchema.Graph.Walk

/-!
# Discriminators

A discriminator names the property that selects a branch of `oneOf`. It is sound when every branch,
behind its pure references, requires the property (or the owner does) and allows only certain
scalars for it, none of them in two places. Then the branches make a dispatch table
(`Discriminator.ofBranches`); otherwise the first check that fails, branch by branch, is the fault.
-/

namespace TaggedSchema

/-- A property and the branch that each of its values selects. -/
structure Discriminator where
  property : String
  table : DispatchTable
  branchCount : Nat
deriving DecidableEq

namespace Discriminator

/-- The branch a tag selects. -/
def branchFor? (d : Discriminator) (tag : Tag) : Option Nat := d.table.get? tag

/-- The tags of a branch, in the order of their texts. -/
def tagsOf (d : Discriminator) (branch : Nat) : List Tag :=
  (d.table.entries.filter fun row => row.2 == branch).map (·.1)

/-! ## 1. Branches -/

/-- Follows pure references from a branch to the first node that is none. A chain that leads to the
    owner, or back to a node it has passed, is a fault at the branch. -/
def branchEnd (g : Graph) (owner branch : NodeId) (property : String) :
    Nat → List NodeId → NodeId → Except SchemaError NodeId
  | 0, _, _ => .error ⟨g.location branch, .cyclicReference⟩
  | fuel + 1, passed, id =>
    match g.node? id with
    | none => .ok id
    | some node =>
      if !node.isPureReference then .ok id
      else
        match node.reference with
        | none => .ok id
        | some target =>
          if target = owner then .error ⟨g.location branch, .cyclicDiscriminator property⟩
          else if passed.contains target then .error ⟨g.location branch, .cyclicReference⟩
          else branchEnd g owner branch property fuel (target :: passed) target

/-- The concrete schema of a branch. -/
def derefBranch (g : Graph) (owner branch : NodeId) (property : String) :
    Except SchemaError NodeId :=
  branchEnd g owner branch property (g.size + 1) [owner, branch] branch

/-! ## 2. Tags of a branch -/

/-- The values a schema allows: its `const`, or else the items of its `enum`. `none` if it has
    neither. -/
def allowedValues (n : Node) : Except SchemaError (Option (List Json)) :=
  match n.keyword? "const" with
  | some constant => .ok (some [constant])
  | none =>
    match n.keyword? "enum" with
    | none => .ok none
    | some (.array (first :: more)) => .ok (some (first :: more))
    | some _ =>
      .error ⟨n.location.join "enum", .invalidKeywordValue "enum" "must be a non-empty array"⟩

/-- The tags of the values a concrete branch allows for the property. -/
def branchTags (g : Graph) (concrete : Node) (property : String) : Except SchemaError (List Tag) :=
  match concrete.property? property with
  | none => .error ⟨concrete.location, .missingTagProperty property⟩
  | some tagSchema => do
    let id ← g.deref tagSchema
    let values ← match g.node? id with
      | some tagNode => allowedValues tagNode
      | none => .ok none
    match values with
    | none => .error ⟨concrete.location, .missingTagConstraint property⟩
    | some values =>
      match values.mapM Tag.ofJson? with
      | some tags => .ok tags
      | none => .error ⟨concrete.location, .invalidTagType property⟩

/-- Enters the tags of a branch. -/
def enter (location : Location) (property : String) (branch : Nat) :
    DispatchTable → List Tag → Except SchemaError DispatchTable
  | table, [] => .ok table
  | table, tag :: rest =>
    match table.insert tag branch with
    | .ok table => enter location property branch table rest
    | .error refusal => .error ⟨location, .duplicateTagValue property refusal.tag⟩

/-- Checks one branch and enters its tags. -/
def addBranch (g : Graph) (owner : NodeId) (ownerRequires : Bool) (property : String)
    (table : DispatchTable) (index : Nat) (branch : NodeId) : Except SchemaError DispatchTable := do
  let id ← derefBranch g owner branch property
  match g.node? id with
  | none => .ok table
  | some concrete =>
    let tags ← branchTags g concrete property
    if !ownerRequires && !concrete.requires property then
      .error ⟨concrete.location, .tagNotRequired property⟩
    else enter concrete.location property index table tags

/-- Checks the branches in order and enters their tags. -/
def addBranches (g : Graph) (owner : NodeId) (ownerRequires : Bool) (property : String) :
    DispatchTable → Nat → List NodeId → Except SchemaError DispatchTable
  | table, _, [] => .ok table
  | table, index, branch :: rest => do
    let table ← addBranch g owner ownerRequires property table index branch
    addBranches g owner ownerRequires property table (index + 1) rest

/-! ## 3. Analysis -/

/-- The discriminator that a property is for the branches of `oneOf`. -/
def ofBranches (g : Graph) (owner : NodeId) (property : String) :
    Except SchemaError Discriminator :=
  match (g.node? owner).bind (·.childList? "oneOf") with
  | none => .error ⟨(g.location owner).join "discriminator", .missingOneOf⟩
  | some branches => do
    let ownerRequires := (g.node? owner).any (·.requires property)
    let table ← addBranches g owner ownerRequires property .empty 0 branches
    return ⟨property, table, branches.length⟩

/-- The property that the `discriminator` keyword of a node names. -/
def propertyOf (n : Node) : Except SchemaError String :=
  let location := n.location.join "discriminator"
  match n.keyword? "discriminator" with
  | some (.object members) =>
    match (members.lookup "propertyName").bind Json.string? with
    | none => .error ⟨location, .invalidDiscriminator "requires propertyName"⟩
    | some property =>
      if (members.lookup "mapping").isSome then
        .error ⟨location, .invalidDiscriminator "mapping is not supported"⟩
      else if !n.hasKeyword "oneOf" then .error ⟨location, .missingOneOf⟩
      else if n.declaredTypes.any fun types => !types.contains .object then
        .error ⟨n.location.join "type", .invalidDiscriminator "requires type object"⟩
      else .ok property
  | _ => .error ⟨location, .invalidDiscriminator "must be an object"⟩

/-- The discriminator of a node. -/
def ofNode (g : Graph) (owner : NodeId) : Except SchemaError Discriminator :=
  match g.node? owner with
  | none => .error ⟨(g.location owner).join "discriminator", .missingOneOf⟩
  | some node => do ofBranches g owner (← propertyOf node)

end Discriminator

end TaggedSchema
