import TaggedSchema.Proofs.DispatchAgreement
import TaggedSchema.Proofs.Nesting
import TaggedSchema.Proofs.Unreached

/-!
# Nothing that is evaluated is left uncompiled

Which nodes are compiled is decided by a visit of the graph; which nodes a rule holds is decided by
each keyword on its own, and some of them take schemas from their siblings as well. A gap between the
two would be silent: a node that is not compiled accepts everything, and so does a branch that is not
there. This file shows that there is no gap. The compiled nodes are those that the root leads to
(`Compiler.compiles_iff`), whatever a rule of theirs holds is among them (`Compiler.covers_of_mem`),
and every evaluation is of one of them (`Compiler.nothing_left_uncompiled`).
-/

namespace TaggedSchema.Compiler

variable {c : Compiler} {store : Store} {g : Graph} {start id : NodeId} {p : Program}

/-! ## 1. Compiled nodes -/

/-- A node that is reached is a node of the graph. -/
theorem exists_node_of_reached [Uri.Library] (hg : g.Resolved store) (hstart : start < g.size)
    (h : id ∈ reached g start) : ∃ n, g.node? id = some n :=
  ⟨_, Array.getElem?_eq_getElem (lt_size_of_reached hg hstart h)⟩

/-- The node is one of those that are compiled, from a root. -/
def Compiles (c : Compiler) (g : Graph) (start id : NodeId) : Prop :=
  ∃ compiled node, c.compileNodes g (reached g start) = .ok compiled ∧
    compiled.lookup id = some node

theorem compiles_iff_mem_reached [Uri.Library] (hg : g.Resolved store) (hstart : start < g.size)
    (hp : c.compile g start = .ok p) : c.Compiles g start id ↔ id ∈ reached g start := by
  obtain ⟨compiled, hcompiled, _, _⟩ := compile_eq_ok_iff.mp hp
  constructor
  · rintro ⟨compiled', node, hcompiled', hlookup⟩
    by_contra hnot
    rw [lookup_of_not_mem hcompiled' hnot] at hlookup
    cases hlookup
  · intro hid
    obtain ⟨n, hn⟩ := exists_node_of_reached hg hstart hid
    obtain ⟨node, _, hlookup⟩ := lookup_of_compileNodes hcompiled hid hn
    exact ⟨compiled, node, hcompiled, hlookup⟩

/-- **The compiled nodes are those that the root leads to.** -/
theorem compiles_iff [Uri.Library] (hg : g.Resolved store) (hstart : start < g.size)
    (hp : c.compile g start = .ok p) :
    c.Compiles g start id ↔ Relation.ReflTransGen g.Leads start id :=
  (compiles_iff_mem_reached hg hstart hp).trans Graph.mem_reached_iff

/-- What a compiled node leads to is compiled. -/
theorem Compiles.of_leads [Uri.Library] (hg : g.Resolved store) (hstart : start < g.size)
    (hp : c.compile g start = .ok p) (h : c.Compiles g start id) {next : NodeId}
    (hleads : g.Leads id next) : c.Compiles g start next :=
  (compiles_iff hg hstart hp).mpr (((compiles_iff hg hstart hp).mp h).tail hleads)

/-! ## 2. What their rules hold -/

/-- **A keyword of a compiled node holds compiled nodes only**: those that its rule may have
    evaluated, whatever the instance is; all those that the check of a plugin has been given, used or
    not; and a branch for every tag of a dispatch table. -/
structure Covers [Pattern.Library] (c : Compiler) (g : Graph) (start id : NodeId)
    (k : CompiledKeyword) : Prop where
  uses : ∀ next, k.rule.Uses next → c.Compiles g start next
  offers : ∀ act, k.rule = .assertion act → ∃ n compile written check, g.node? id = some n ∧
    (k.name, compile) ∈ Builtin.keywords ∧
    compile ⟨k.name, written, id, n, g⟩ = .ok (some check) ∧ act = check.run ∧
    ∀ place next, check.Offers place next → c.Compiles g start next
  selects : ∀ d branches typeChecked, k.rule = .dispatch d branches typeChecked →
    d.branchCount = branches.length ∧ (∀ row ∈ d.table.rows, row.2 < branches.length) ∧
    ∀ tag i, d.branchFor? tag = some i →
      ∃ branch, branches[i]? = some branch ∧ c.Compiles g start branch

/-- The rule of a plugin is a check of its built-in keyword. -/
theorem exists_check_of_assertion [Pattern.Library] (hregistry : c.registry = .default) {n : Node}
    {node : CompiledNode} (h : c.compileNode g id n = .ok node) {k : CompiledKeyword}
    (hk : k ∈ node.keywords) {act : Assertion} (hact : k.rule = .assertion act) :
    ∃ compile written check, (k.name, compile) ∈ Builtin.keywords ∧
      compile ⟨k.name, written, id, n, g⟩ = .ok (some check) ∧ act = check.run := by
  rcases keywordRule_of_compileNode h hk with hnever | ⟨d, written, _, _, hrule⟩
  · rw [hact] at hnever
    cases hnever
  · rw [hact] at hrule
    rcases keywordRule_cases hrule with
      ⟨_, _, hcore⟩ | ⟨_, hnone⟩ | ⟨plugin, found, _, hplugin, hfound, he⟩
    · cases hcore
    · cases hnone
    · cases found with
      | none => cases he
      | some found =>
        cases he
        rw [hregistry] at hplugin
        obtain ⟨compile, check, hcheck⟩ := Registry.exists_check_of_find? hplugin hfound
        exact ⟨compile, written, check, hcheck⟩

/-- A dispatch has a branch for every row of its table. -/
theorem branches_of_dispatch [Uri.Library] (hg : g.Resolved store) {n : Node}
    (hn : g.node? id = some n) {node : CompiledNode} (h : c.compileNode g id n = .ok node)
    {k : CompiledKeyword}
    (hk : k ∈ node.keywords) {d : Discriminator} {branches : List NodeId} {typeChecked : Bool}
    (hrule : k.rule = .dispatch d branches typeChecked) :
    d.branchCount = branches.length ∧ ∀ row ∈ d.table.rows, row.2 < branches.length := by
  obtain ⟨_, hbranches, property, _, hanalysed⟩ := analysed_of_dispatch hn h hk hrule
  obtain ⟨analysed, tags, hall, rfl⟩ := Discriminator.declaresAll_of_ofBranches hg hanalysed
  cases hbranches.symm.trans hall.1
  refine ⟨rfl, fun ⟨tag, i⟩ hrow => ?_⟩
  obtain ⟨declared, hdeclared, _⟩ := Discriminator.mem_rowsOf.mp hrow
  exact hall.2.1.length_eq ▸ (List.getElem?_eq_some_iff.mp hdeclared).1

/-- **Whatever a keyword of a compiled node holds is compiled.** -/
theorem covers_of_mem [Uri.Library] [Pattern.Library] (hregistry : c.registry = .default)
    (hg : g.Resolved store) (hstart : start < g.size) (hp : c.compile g start = .ok p)
    {node : CompiledNode}
    (hnode : p.nodes[id]? = some node) {k : CompiledKeyword} (hk : k ∈ node.keywords) :
    c.Covers g start id k := by
  obtain ⟨hid, n, hn, hcompiled⟩ := compileNode_of_keyword hp hnode hk
  have hown := (compiles_iff_mem_reached hg hstart hp).mpr hid
  have huses (next : NodeId) (h : k.rule.Uses next) : c.Compiles g start next :=
    hown.of_leads hg hstart hp
      (mem_edges.mp (mem_edges_of_leads hregistry hp ⟨node, hnode, k, hk, h⟩))
  refine ⟨huses, fun act hact => ?_, fun d branches typeChecked hrule => ?_⟩
  · obtain ⟨compile, written, check, hmem, hcheck, hrun⟩ :=
      exists_check_of_assertion hregistry hcompiled hk hact
    refine ⟨n, compile, written, check, hn, hmem, hcheck, hrun, fun place next hoffers => ?_⟩
    exact hown.of_leads hg hstart hp ⟨n, hn, Builtin.holds_or_refers_of_offers hmem hcheck hoffers⟩
  · obtain ⟨hcount, hrows⟩ := branches_of_dispatch hg hn hcompiled hk hrule
    refine ⟨hcount, hrows, fun tag i hselected => ?_⟩
    have hlt : i < branches.length := hrows _ (mem_of_lookup hselected)
    refine ⟨branches[i], List.getElem?_eq_getElem hlt, huses _ ?_⟩
    rw [hrule]
    exact List.getElem_mem hlt

/-! ## 3. What is evaluated -/

/-- **Nothing that is evaluated is left uncompiled.** The compiled nodes are those that the root leads
    to through children, except definitions, and through references; each stands in the program as it
    has been compiled, and every other node stands there as one that asserts nothing. Whatever a
    keyword of the program holds is compiled. So every evaluation of every instance, on the report or
    apart from it, is of a compiled node. And graphs that differ in nodes that the root does not lead
    to, but for their locations, compile to the same program. -/
theorem nothing_left_uncompiled [Uri.Library] [Pattern.Library] (o : Options) {store : Store}
    {root : String} {g : Graph} (hg : Graph.resolve store root = .ok g) {start : NodeId}
    (hstart : start < g.size) {p : Program}
    (hp : (builtin o).compile g start = .ok p) :
    (∀ id, (builtin o).Compiles g start id ↔ Relation.ReflTransGen g.Leads start id) ∧
    (∀ id n, g.node? id = some n →
      ((builtin o).Compiles g start id →
        ∃ node, (builtin o).compileNode g id n = .ok node ∧ p.nodes[id]? = some node) ∧
      (¬ (builtin o).Compiles g start id → p.nodes[id]? = some (.inert n.location))) ∧
    (∀ id node, p.nodes[id]? = some node → ∀ k ∈ node.keywords, (builtin o).Covers g start id k) ∧
    (∀ failFast value, ∀ a ∈ p.calls failFast value, (builtin o).Compiles g start a.node ∧
      ∃ n node, g.node? a.node = some n ∧ (builtin o).compileNode g a.node n = .ok node ∧
        p.nodes[a.node]? = some node) ∧
    ∀ g', g.AgreesBelow g' start → (builtin o).compile g' start = .ok p := by
  obtain ⟨hresolved, _⟩ := Graph.resolved_of_resolve hg
  have hreached {id : NodeId} : (builtin o).Compiles g start id ↔ id ∈ reached g start :=
    compiles_iff_mem_reached hresolved hstart hp
  refine ⟨fun id => compiles_iff hresolved hstart hp, fun id n hn => ⟨fun h => ?_, fun h => ?_⟩,
    fun id node hnode k hk => covers_of_mem rfl hresolved hstart hp hnode hk,
    fun failFast value a ha => ?_, fun g' h => (compile_eq_of_agrees rfl h).trans hp⟩
  · exact node_of_reached hp (hreached.mp h) hn
  · have hlocation : g.location id = n.location := by
      unfold Graph.location
      rw [hn]
    exact hlocation ▸ node_of_not_reached hp (mt hreached.mpr h) (lt_size_of_node? hn)
  · have hid := mem_reached_of_chain rfl hresolved hstart hp (Program.reached_of_mem_calls ha)
    obtain ⟨n, hn⟩ := exists_node_of_reached hresolved hstart hid
    obtain ⟨node, hcompiled, hnode⟩ := node_of_reached hp hid hn
    exact ⟨hreached.mpr hid, n, node, hn, hcompiled, hnode⟩

/-- A schema with a condition, a discriminator and a list, and a definition that nothing refers to and
    that is no valid schema. -/
def patchwork : Json :=
  .object
    [("$defs", .object
      [("Circle", .object
        [("properties", .object [("kind", .object [("const", .string "circle")])]),
          ("required", .array [.string "kind"])]),
        ("Idle", .object [("pattern", .string "(")])]),
      ("else", .object
        [("additionalItems", .object [("$ref", .string "#")]),
          ("items", .array [.object [("type", .string "string")]])]),
      ("if", .object [("type", .string "object")]),
      ("then", .object
        [("discriminator", .object [("propertyName", .string "kind")]),
          ("oneOf", .array [.object [("$ref", .string "#/$defs/Circle")]]),
          ("type", .string "object")])]

/-- The definition stands in the graph, but nothing leads there and nothing is evaluated there, and
    whatever else is written in its place compiles to the same program. -/
theorem nothing_left_uncompiled_patchwork :
    ∃ g p idle, Graph.ofDocument patchwork = .ok g ∧ (builtin .default).compile g g.root = .ok p ∧
      (g.node? idle).map Node.location = some ⟨Store.defaultBase, ⟨["$defs", "Idle"]⟩⟩ ∧
      p.nodes[idle]? = some (.inert ⟨Store.defaultBase, ⟨["$defs", "Idle"]⟩⟩) ∧
      (∀ failFast value, ∀ a ∈ p.calls failFast value, a.node ≠ idle ∧
        ∃ n node, g.node? a.node = some n ∧ (builtin .default).compileNode g a.node n = .ok node ∧
          p.nodes[a.node]? = some node) ∧
      ∀ m : Node, m.location = ⟨Store.defaultBase, ⟨["$defs", "Idle"]⟩⟩ →
        (builtin .default).compile { g with nodes := g.nodes.setIfInBounds idle m } g.root = .ok p := by
  have hall : ((Graph.ofDocument patchwork).toOption.any fun g =>
      ((builtin .default).compile g g.root).toOption.any fun _ =>
        decide (g.root < g.size) && g.ids.any fun idle =>
          !(reached g g.root).contains idle &&
            (g.node? idle).any (·.location == ⟨Store.defaultBase, ⟨["$defs", "Idle"]⟩⟩)) = true := by
    decide +kernel
  obtain ⟨g, hg, hall⟩ := any_toOption_eq_true.mp hall
  obtain ⟨p, hp, hall⟩ := any_toOption_eq_true.mp hall
  obtain ⟨hroot, hall⟩ := Bool.and_eq_true_iff.mp hall
  obtain ⟨idle, _, hall⟩ := List.any_eq_true.mp hall
  obtain ⟨hnot, hidle⟩ := Bool.and_eq_true_iff.mp hall
  obtain ⟨n, hn, hlocation⟩ := (Option.any_eq_true _ _).mp hidle
  have hlocation := beq_iff_eq.mp hlocation
  obtain ⟨hcompiles, hplaced, _, hcalls, hothers⟩ :=
    nothing_left_uncompiled .default hg (of_decide_eq_true hroot) hp
  have hnowhere : ¬ Relation.ReflTransGen g.Leads g.root idle := by
    rw [← Graph.mem_reached_iff]
    simpa using hnot
  have huncompiled := mt (hcompiles idle).mp hnowhere
  refine ⟨g, p, idle, hg, hp, ?_, ?_, fun failFast value a ha => ?_, fun m hm => ?_⟩
  · rw [hn, Option.map_some, hlocation]
  · exact hlocation ▸ (hplaced idle n hn).2 huncompiled
  · obtain ⟨hcompiled, hnode⟩ := hcalls failFast value a ha
    exact ⟨fun h => huncompiled (h ▸ hcompiled), hnode⟩
  · exact hothers _ (Graph.agreesBelow_set hnowhere hn (hm.trans hlocation.symm))

end TaggedSchema.Compiler
