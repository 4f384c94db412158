import TaggedSchema.Proofs.Cycles
import TaggedSchema.Proofs.Nesting

/-!
# References and `allOf` at one place

A reference and an `allOf` have schemas evaluated where the instance is, whatever the instance looks
like (`Program.Continues`). Each such step of an evaluation goes along an edge in place of the graph
(`Compiler.along_of_continues`), and a graph with a cycle of these edges among its reached nodes is
refused. So the steps do not repeat a node, and there are fewer of them in a row than there are nodes.
The last theorem puts that behind what the search for cycles in place decides
(`Graph.inPlaceCycle_decides`).
-/

namespace TaggedSchema

/-! ## 1. Steps in place -/

/-- The rules that have their schemas evaluated in place and want all of them to hold. -/
def Rule.IsInPlace : Rule → Prop
  | .ref _ => True
  | .allOf _ => True
  | _ => False

/-- What such a rule requests stays at its place, on the value itself. -/
theorem Rule.IsInPlace.of_requests {rule : Rule} (hrule : rule.IsInPlace) {keyword : String}
    {value : Json} {segments : List String} {r : Request}
    (hr : rule.Requests keyword value segments r) : r.segment = none ∧ r.value = value := by
  cases hr with
  | ref => exact ⟨rfl, rfl⟩
  | allOf => exact ⟨rfl, rfl⟩
  | _ => exact hrule.elim

/-- An evaluation directly inside another, for a reference or an `allOf`. -/
inductive Program.Continues (p : Program) (a : Call) : Call → Prop where
  | request {node : CompiledNode} {k : CompiledKeyword} {segments : List String} {r : Request}
      (hdepth : a.frame.depth ≤ p.maxDepth) (hnode : p.nodes[a.node]? = some node)
      (hk : k ∈ node.keywords) (hrule : k.rule.IsInPlace)
      (hr : k.rule.Requests k.name a.value segments r) :
      Continues p a ⟨r.schema, r.value, a.frame.moved segments r.segment⟩

namespace Program.Continues

variable {p : Program} {a b : Call}

/-- Neither the value nor its place changes. -/
theorem same_place (h : p.Continues a b) :
    b.value = a.value ∧ b.frame.instancePath = a.frame.instancePath := by
  obtain ⟨_, _, _, hrule, hr⟩ := h
  obtain ⟨hsegment, hvalue⟩ := hrule.of_requests hr
  refine ⟨hvalue, ?_⟩
  rw [hsegment]
  rfl

end Program.Continues

namespace Compiler

open TaggedSchema.Graph

variable {c : Compiler} {store : Store} {g : Graph} {start : NodeId} {p : Program} {a b : Call}

/-- What the rule of a reference or an `allOf` requests is the target that resolution found, or one of
    the schemas of the list. -/
theorem linked_of_request {id : NodeId} {n : Node} {d : Option Discriminator} {name : String}
    {written : Json} {rule : Rule} (hrule : c.keywordRule g id n d name written = .ok (some rule))
    (hinPlace : rule.IsInPlace) {value : Json} {segments : List String} {r : Request}
    (hr : rule.Requests name value segments r) :
    (∃ schemas, n.childList? "allOf" = some schemas ∧ r.schema ∈ schemas) ∨
      n.reference = some r.schema := by
  rcases keywordRule_cases hrule with ⟨core, _, hcore⟩ | ⟨_, hnone⟩ | ⟨_, act, _, _, _, he⟩
  · cases hr with
    | ref =>
      cases hcore with
      | ref htarget => exact Or.inr htarget
    | allOf hid =>
      cases hcore with
      | allOf hschemas => exact Or.inl ⟨_, hschemas, List.mem_of_getElem? hid⟩
    | _ => exact hinPlace.elim
  · cases hnone
  · cases act with
    | none => cases he
    | some act =>
      cases he
      exact hinPlace.elim

/-- **A step in place goes along an edge in place**, from a reached node. -/
theorem along_of_continues (hp : c.compile g start = .ok p) (h : p.Continues a b) :
    a.node ∈ reached g start ∧ Along g.inPlaceEdges a.node b.node := by
  obtain ⟨_, hnode, hk, hrule, hr⟩ := h
  obtain ⟨hid, n, hn, hcompiled⟩ := compileNode_of_keyword hp hnode hk
  refine ⟨hid, mem_inPlaceEdges.mpr ⟨n, hn, ?_⟩⟩
  rcases keywordRule_of_compileNode hcompiled hk with hnever | ⟨d, written, _, _, hkeyword⟩
  · rw [hnever] at hrule
    exact hrule.elim
  · exact linked_of_request hkeyword hrule hr

/-- Of a graph that compiles, the reached nodes do not come back to themselves in place. -/
theorem acyclic_of_compile (hp : c.compile g start = .ok p) {id : NodeId}
    (hid : id ∈ reached g start) : ¬ Relation.TransGen (Along g.inPlaceEdges) id id := by
  intro hcycle
  obtain ⟨_, hfirst, _⟩ := Relation.TransGen.head'_iff.mp hcycle
  obtain ⟨_, _, hnone, _⟩ := compile_eq_ok_iff.mp hp
  have hmem : id ∈ g.ids.filter (reached g start).contains := List.mem_filter.mpr
    ⟨List.mem_range.mpr (lt_size_of_inPlaceEdges hfirst), List.contains_iff_mem.mpr hid⟩
  exact inPlaceCycle_eq_none_iff.mp hnone id hmem id .refl hcycle

variable [Uri.Library]

/-- Of steps in place in a row, each goes along an edge in place, and stays among the reached nodes. -/
theorem along_of_chain (hg : g.Resolved store) (hstart : start < g.size)
    (hp : c.compile g start = .ok p) {chain : List Call}
    (h : List.IsChain p.Continues (a :: chain)) :
    List.IsChain (Along g.inPlaceEdges) (a.node :: chain.map Call.node) ∧
      ∀ b ∈ chain, b.node ∈ reached g start ∧ b.value = a.value ∧
        b.frame.instancePath = a.frame.instancePath := by
  induction chain generalizing a with
  | nil => exact ⟨.singleton _, fun _ hb => absurd hb List.not_mem_nil⟩
  | cons next rest ih =>
    obtain ⟨hfirst, hrest⟩ := List.isChain_cons_cons.mp h
    obtain ⟨hpath, hall⟩ := ih hrest
    obtain ⟨hid, hedge⟩ := along_of_continues hp hfirst
    obtain ⟨hvalue, hplace⟩ := hfirst.same_place
    have hnext : next.node ∈ reached g start := by
      obtain ⟨n, hn, hlink⟩ := mem_inPlaceEdges.mp hedge
      rcases hlink with ⟨schemas, hschemas, hmem⟩ | htarget
      · exact mem_reached_of_child hg hstart hid hn (Node.children?_of_childList? hschemas) rfl hmem
      · exact mem_reached_of_reference hg hstart hid hn htarget
    refine ⟨List.isChain_cons_cons.mpr ⟨hedge, hpath⟩,
      List.forall_mem_cons.mpr ⟨⟨hnext, hvalue, hplace⟩, fun b hb => ?_⟩⟩
    obtain ⟨hb, hvalue', hplace'⟩ := hall b hb
    exact ⟨hb, hvalue'.trans hvalue, hplace'.trans hplace⟩

/-- **Fewer steps in place are made in a row than there are nodes**: none of the nodes they come to
    is the one before the first, and none comes twice. -/
theorem length_lt_of_chain (hg : g.Resolved store) (hstart : start < g.size)
    (hp : c.compile g start = .ok p) {chain : List Call}
    (h : List.IsChain p.Continues (a :: chain)) : chain.length < g.size := by
  obtain ⟨hpath, hall⟩ := along_of_chain hg hstart hp h
  cases chain with
  | nil => exact Nat.zero_lt_of_lt hstart
  | cons next rest =>
    have hfirst := (along_of_continues hp (List.isChain_cons_cons.mp h).1).1
    have hreached : ∀ id ∈ a.node :: (next :: rest).map Call.node, id ∈ reached g start :=
      List.forall_mem_cons.mpr ⟨hfirst, List.forall_mem_map.mpr fun b hb => (hall b hb).1⟩
    have hnodup := nodup_of_acyclic (fun id hid => acyclic_of_compile hp (hreached id hid)) hpath
    have hle := length_le_size hnodup fun id hid => lt_size_of_reached hg hstart (hreached id hid)
    rw [List.length_cons, List.length_map] at hle
    exact hle

end Compiler

/-! ## 2. What the search decides -/

/-- **The search for a cycle in place is sound and complete.** For every graph and all starts it ends,
    in one way only; it finds nothing exactly when no cycle of references and `allOf` is reached from
    the starts along such edges, and a node that it finds is reached and lies on such a cycle. So a
    graph compiles only if none of its reached nodes comes back to itself along these edges, and then
    fewer steps in place are made in a row, all of them at one place of the instance and on one value,
    than the graph has nodes. -/
theorem Graph.inPlaceCycle_decides [Uri.Library] (g : Graph) (starts : List NodeId) :
    (∀ outcome, Scans g.inPlaceEdges [] starts outcome ↔ outcome = g.inPlaceCycle starts) ∧
    (g.inPlaceCycle starts = none ↔
      ∀ start ∈ starts, ∀ id, Relation.ReflTransGen (Along g.inPlaceEdges) start id →
        ¬ Relation.TransGen (Along g.inPlaceEdges) id id) ∧
    (∀ closing, g.inPlaceCycle starts = some closing →
      (∃ start ∈ starts, Relation.ReflTransGen (Along g.inPlaceEdges) start closing) ∧
        Relation.TransGen (Along g.inPlaceEdges) closing closing) ∧
    ∀ (c : Compiler) (start : NodeId) (p : Program), c.compile g start = .ok p →
      (∀ id ∈ Compiler.reached g start, ¬ Relation.TransGen (Along g.inPlaceEdges) id id) ∧
      ∀ (store : Store) (root : String), Graph.resolve store root = .ok g → start < g.size →
        ∀ (a : Call) (chain : List Call), List.IsChain p.Continues (a :: chain) →
          chain.length < g.size ∧
          ∀ b ∈ chain, b.value = a.value ∧ b.frame.instancePath = a.frame.instancePath := by
  have hscans := scans_inPlaceCycle g starts
  refine ⟨fun outcome => ⟨fun h => h.unique hscans, fun h => h ▸ hscans⟩,
    inPlaceCycle_eq_none_iff, fun closing hfound => ?_, fun c start p hp =>
      ⟨fun id hid => Compiler.acyclic_of_compile hp hid, fun store root hg hstart a chain hchain => ?_⟩⟩
  · rw [hfound] at hscans
    obtain ⟨start, hmem, hpath, hcycle⟩ := hscans.closing
    exact ⟨⟨start, hmem, hpath⟩, hcycle⟩
  · obtain ⟨hresolved, _⟩ := Graph.resolved_of_resolve hg
    have hplaces := (Compiler.along_of_chain hresolved hstart hp hchain).2
    exact ⟨Compiler.length_lt_of_chain hresolved hstart hp hchain, fun b hb => (hplaces b hb).2⟩

/-- A reference to a definition that holds all of a list, one of them a reference again. -/
def layered : Json :=
  .object
    [("$ref", .string "#/definitions/Outer"),
      ("definitions", .object
        [("Inner", .object [("type", .string "object")]),
          ("Outer", .object [("allOf", .array
            [.object [("$ref", .string "#/definitions/Inner")], .bool true])])])]

/-- A definition that holds all of itself. -/
def swallowed : Json :=
  .object
    [("$ref", .string "#/definitions/A"),
      ("definitions", .object
        [("A", .object [("allOf", .array [.bool true, .object [("$ref", .string "#/definitions/A")]])])])]

/-- The first compiles and has at most four nested steps in place; of the second, the search finds a
    node on the cycle. -/
theorem Graph.inPlaceCycle_decides_layered :
    (∃ g p, Graph.ofDocument layered = .ok g ∧
      (Compiler.builtin .default).compile g g.root = .ok p ∧ g.inPlaceCycle g.ids = none ∧
      ∀ a chain, List.IsChain p.Continues (a :: chain) → chain.length < 5) ∧
    ∃ g closing, Graph.ofDocument swallowed = .ok g ∧ g.inPlaceCycle g.ids = some closing ∧
      Relation.TransGen (Along g.inPlaceEdges) closing closing := by
  have hlayered : ((Graph.ofDocument layered).toOption.any fun g =>
      ((Compiler.builtin .default).compile g g.root).toOption.any fun _ =>
        decide (g.inPlaceCycle g.ids = none) && decide (g.root < g.size) && decide (g.size = 5))
      = true := by decide +kernel
  have hswallowed : ((Graph.ofDocument swallowed).toOption.any fun g =>
      (g.inPlaceCycle g.ids).isSome) = true := by decide +kernel
  constructor
  · obtain ⟨g, hg, hlayered⟩ := any_toOption_eq_true.mp hlayered
    obtain ⟨p, hp, hlayered⟩ := any_toOption_eq_true.mp hlayered
    obtain ⟨hlayered, hsize⟩ := Bool.and_eq_true_iff.mp hlayered
    obtain ⟨hnone, hroot⟩ := Bool.and_eq_true_iff.mp hlayered
    refine ⟨g, p, hg, hp, of_decide_eq_true hnone, fun a chain hchain => ?_⟩
    rw [← of_decide_eq_true hsize]
    exact ((((inPlaceCycle_decides g g.ids).2.2.2 _ _ _ hp).2 _ _ hg (of_decide_eq_true hroot)) a
      chain hchain).1
  · obtain ⟨g, hg, hsome⟩ := any_toOption_eq_true.mp hswallowed
    obtain ⟨closing, hclosing⟩ := Option.isSome_iff_exists.mp hsome
    exact ⟨g, closing, hg, hclosing, ((inPlaceCycle_decides g g.ids).2.2.1 closing hclosing).2⟩

end TaggedSchema
