import TaggedSchema.Graph
import TaggedSchema.SchemaError

/-!
# Walks through a graph

Three searches: the nodes that can be reached along some edges (`reach`), the schema that a chain of
pure references ends in (`deref`), and a cycle of edges that stay at one place of the instance
(`inPlaceCycle`). Each search goes deeper only to nodes it has not met, so the number of nodes
bounds its depth.
-/

namespace TaggedSchema.Graph

/-! ## 1. Reachable nodes -/

/-- Visits a node and, depth first, what its edges lead to, except what has been seen. The result
    lists the nodes in the order of the visit, behind those seen before. -/
def visit (edges : NodeId → List NodeId) : Nat → List NodeId → NodeId → List NodeId
  | 0, seen, _ => seen
  | fuel + 1, seen, id =>
    if seen.contains id then seen
    else (edges id).foldl (visit edges fuel) (seen ++ [id])

/-- The nodes reached from the starts, in the order of a depth-first visit. -/
def reach (g : Graph) (edges : NodeId → List NodeId) (starts : List NodeId) : List NodeId :=
  starts.foldl (visit edges (g.size + 1)) []

/-- All nodes a node leads to. -/
def successors (g : Graph) (id : NodeId) : List NodeId :=
  match g.node? id with
  | some node => node.successors
  | none => []

/-- Whether a node can be reached from itself along children and references. -/
def isRecursive (g : Graph) (id : NodeId) : Bool :=
  (g.reach g.successors (g.successors id)).contains id

/-! ## 2. Chains of references -/

/-- Follows pure references from a node to the first node that is none; `none` if the chain comes
    back to a node it has passed. -/
def chainEnd? (g : Graph) : Nat → List NodeId → NodeId → Option NodeId
  | 0, _, _ => none
  | fuel + 1, passed, id =>
    match g.node? id with
    | none => some id
    | some node =>
      if !node.isPureReference then some id
      else if passed.contains id then none
      else
        match node.reference with
        | some target => chainEnd? g fuel (id :: passed) target
        | none => some id

/-- The location of a node. -/
def location (g : Graph) (id : NodeId) : Location :=
  match g.node? id with
  | some node => node.location
  | none => .ofDocument ""

/-- The schema that a chain of pure references ends in. -/
def deref (g : Graph) (id : NodeId) : Except SchemaError NodeId :=
  match g.chainEnd? (g.size + 1) [] id with
  | some target => .ok target
  | none => .error ⟨g.location id, .cyclicReference⟩

/-! ## 3. Cycles in place -/

/-- The edges along which the place of the instance stays and every end has to hold: `allOf` and the
    reference. -/
def inPlaceEdges (g : Graph) (id : NodeId) : List NodeId :=
  match g.node? id with
  | some node => (node.childList? "allOf").getD [] ++ node.reference.toList
  | none => []

/-- Searches a cycle below a node, depth first. `opened` are the nodes on the way down to it, `done`
    those below which there is no cycle. The answer is the node whose edge closes a cycle, or the
    nodes that are done then. -/
def searchCycle (edges : NodeId → List NodeId) :
    Nat → List NodeId → List NodeId → NodeId → Except NodeId (List NodeId)
  | 0, _, done, _ => .ok done
  | fuel + 1, opened, done, id => do
    let opened := id :: opened
    let done ← (edges id).foldlM (fun done target =>
      if opened.contains target then .error id
      else if done.contains target then .ok done
      else searchCycle edges fuel opened done target) done
    return id :: done

/-- A node whose edge closes a cycle in place, if one is reached from the starts. -/
def inPlaceCycle (g : Graph) (starts : List NodeId) : Option NodeId :=
  let search := starts.foldlM (fun done start =>
    if done.contains start then .ok done
    else searchCycle g.inPlaceEdges (g.size + 1) [] done start) []
  match search with
  | .ok _ => none
  | .error id => some id

end TaggedSchema.Graph
