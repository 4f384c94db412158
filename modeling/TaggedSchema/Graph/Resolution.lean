import TaggedSchema.Graph
import TaggedSchema.SchemaError
import TaggedSchema.Store

/-!
# Resolving a document into a graph

From the root of a document every subschema is followed: the children that structural keywords hold,
and the targets of references, in whatever document they lie. Each location becomes one node,
however it is reached. A node is noted when it is first met and expanded later, the latest first;
noting checks what stands at the location, expanding checks its structural keywords and its
reference.

A location that can be noted is a value of a document, under one of the names that documents have,
and each is expanded once, so the number of names times that of values bounds the expansions.
-/

namespace TaggedSchema

variable [Uri.Library]

/-- A graph under construction: the nodes so far, and those not yet expanded, the latest first. -/
structure Draft where
  nodes : Array Node
  pending : List NodeId

namespace Draft

/-! ## 1. Noting a location -/

/-- The body of a schema, if the value is one. -/
def bodyOf? : Json → Option SchemaBody
  | .bool b => some (.bool b)
  | .object members => some (.object members)
  | _ => none

/-- The types a schema declares; a `type` keyword that lists none is a fault. -/
def declaredTypes (location : Location) (schema : Json) :
    Except ResolutionError (Option (List InstanceType)) :=
  match schema.get? "type" with
  | none => .ok none
  | some raw =>
    match InstanceType.declared? raw with
    | some types => .ok (some types)
    | none =>
      .error (.malformed location "type"
        ("expected a type name or an array of type names, found " ++ raw.text))

/-- The node at a location, new or known; `none` if there is nothing. The keyword is the one that
    leads here, and is named if what stands here is no schema. -/
def note (store : Store) (d : Draft) (location : Location) (keyword : String) :
    Except ResolutionError (Option NodeId × Draft) :=
  match d.nodes.findIdx? fun n => n.location == location with
  | some id => .ok (some id, d)
  | none =>
    match store.lookup? location with
    | none => .ok (none, d)
    | some schema =>
      match bodyOf? schema with
      | none => .error (.malformed location keyword "expected a schema (object or boolean)")
      | some body => do
        let types ← declaredTypes location schema
        let id := d.nodes.size
        return (some id, ⟨d.nodes.push ⟨location, body, types, [], none⟩, id :: d.pending⟩)

/-- The node of a subschema. -/
def noteChild (store : Store) (d : Draft) (location : Location) (keyword : String) :
    Except ResolutionError (NodeId × Draft) := do
  match ← d.note store location keyword with
  | (some id, d) => return (id, d)
  | (none, _) => .error (.malformed location keyword "subschema vanished during resolution")

/-- The nodes one segment below a location, in order. -/
def noteAll (store : Store) (below : Location) (keyword : String) :
    Draft → List String → Except ResolutionError (List NodeId × Draft)
  | d, [] => .ok ([], d)
  | d, segment :: rest => do
    let (id, d) ← d.noteChild store (below.join segment) keyword
    let (ids, d) ← noteAll store below keyword d rest
    return (id :: ids, d)

/-! ## 2. Expanding a node -/

/-- The places of subschemas under a structural keyword: the keyword itself, the items of its array,
    or the members of its object. -/
inductive Places where
  | single
  | list (count : Nat)
  | map (keys : List String)

/-- The places a structural keyword has, if its value is of the right shape. -/
def places? : Structure → Json → Option Places
  | .single, .object _ => some .single
  | .single, .bool _ => some .single
  | .singleOrList, .object _ => some .single
  | .singleOrList, .bool _ => some .single
  | .list, .array items => some (.list items.length)
  | .singleOrList, .array items => some (.list items.length)
  | .map, .object members => some (.map (members.map (·.1)))
  | _, _ => none

/-- The structural keywords of a node and their places, in key order. -/
def placesOf (location : Location) :
    List (String × Json) → Except ResolutionError (List (String × Places))
  | [] => .ok []
  | (keyword, value) :: rest =>
    match Structure.of? keyword with
    | none => placesOf location rest
    | some shape =>
      match places? shape value with
      | some places => do return (keyword, places) :: (← placesOf location rest)
      | none => .error (.malformed location keyword ("unexpected value " ++ value.text))

/-- The text of a node's reference. -/
def referenceText (location : Location) (keywords : List (String × Json)) :
    Except ResolutionError (Option String) :=
  match keywords.lookup "$ref" with
  | none => .ok none
  | some (.string text) => .ok (some text)
  | some other => .error (.malformed location "$ref" ("expected a string, found " ++ other.text))

/-- The nodes at the places of one keyword. -/
def noteChildren (store : Store) (location : Location) (keyword : String) (d : Draft) :
    Places → Except ResolutionError (Children × Draft)
  | .single => do
    let (id, d) ← d.noteChild store (location.join keyword) keyword
    return (.single id, d)
  | .list count => do
    let (ids, d) ← noteAll store (location.join keyword) keyword d ((List.range count).map Nat.repr)
    return (.list ids, d)
  | .map keys => do
    let (ids, d) ← noteAll store (location.join keyword) keyword d keys
    return (.map (keys.zip ids), d)

/-- The nodes at the places of all keywords. -/
def noteKeywords (store : Store) (location : Location) :
    Draft → List (String × Places) → Except ResolutionError (List (String × Children) × Draft)
  | d, [] => .ok ([], d)
  | d, (keyword, places) :: rest => do
    let (children, d) ← noteChildren store location keyword d places
    let (more, d) ← noteKeywords store location d rest
    return ((keyword, children) :: more, d)

/-- The fragment of a reference: what follows its first hash. -/
def fragmentOf (reference : String) : String :=
  String.ofList ((reference.toList.dropWhile (· ≠ '#')).drop 1)

/-- The node a reference leads to. Its document part is read against the base of the document that
    holds it, its fragment as a pointer. -/
def noteReference (store : Store) (d : Draft) (source : Location) (reference : String) :
    Except ResolutionError (NodeId × Draft) :=
  match Pointer.parse (fragmentOf reference) with
  | .error e =>
    .error (.malformed source "$ref"
      ("unsupported fragment in \"" ++ reference ++ "\": " ++ e.message))
  | .ok pointer =>
    let base := (store.baseUri source.document).getD source.document
    let document := Store.resolveUri base reference
    match store.canonicalBase document with
    | none => .error (.danglingReference source reference ⟨document, pointer⟩)
    | some key => do
      match ← d.note store ⟨key, pointer⟩ "$ref" with
      | (some id, d) => return (id, d)
      | (none, _) => .error (.danglingReference source reference ⟨key, pointer⟩)

/-- Finds the children and the reference of a node. -/
def expand (store : Store) (d : Draft) (id : NodeId) : Except ResolutionError Draft :=
  match d.nodes[id]? with
  | none => .ok d
  | some node =>
    match node.body with
    | .bool _ => .ok d
    | .object keywords => do
      let places ← placesOf node.location keywords
      let reference ← referenceText node.location keywords
      let (children, d) ← noteKeywords store node.location d places
      match reference with
      | none => return { d with nodes := d.nodes.modify id fun n => { n with children } }
      | some text =>
        let (target, d) ← noteReference store d node.location text
        return { d with
          nodes := d.nodes.modify id fun n => { n with children, reference := some target } }

/-- Expands the pending nodes, the latest first, and those they lead to. -/
def expandAll (store : Store) : Nat → Draft → Except ResolutionError Draft
  | 0, d => .ok d
  | fuel + 1, d =>
    match d.pending with
    | [] => .ok d
    | id :: rest => do expandAll store fuel (← expand store { d with pending := rest } id)

end Draft

namespace Graph

/-- The graph of a document of the store. -/
def resolve (store : Store) (root : String) : Except ResolutionError Graph :=
  match store.canonicalBase root with
  | none => .error (.unknownDocument root)
  | some base => do
    match ← Draft.note store ⟨#[], []⟩ (.ofDocument base) "$ref" with
    | (some id, d) =>
      let d ← Draft.expandAll store
        ((store.documents.length + store.aliases.length) * store.valueCount + 1) d
      return ⟨d.nodes, id⟩
    | (none, _) => .error (.unknownDocument base)

/-- The graph of one document on its own. -/
def ofDocument (document : Json) : Except ResolutionError Graph :=
  resolve (.single document) Store.defaultBase

end Graph

end TaggedSchema
