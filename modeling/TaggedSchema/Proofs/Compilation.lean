import TaggedSchema.Program.Compilation
import TaggedSchema.Proofs.Entries
import TaggedSchema.Proofs.Fallible

/-!
# What compiling yields

`Compiler.compile` visits the reached nodes in some order and stops at the first fault. This file
takes the order out of it: the program of a graph holds under each number the compiled node, if the
node is reached, and an inert one otherwise (`node_of_reached`, `node_of_not_reached`), and there is
a program exactly when every reached node can be compiled and no cycle in place is reached
(`exists_compile_iff`).
-/

namespace TaggedSchema.Compiler

variable {c : Compiler} {g : Graph}

/-! ## 1. Keywords of one node -/

/-- The rule of a keyword of the core, by what the node has for it. -/
inductive CoreRule (n : Node) (d : Option Discriminator) (value : Json) :
    CoreKeyword → Option Rule → Prop where
  | type {types : List InstanceType} (h : n.declaredTypes = some types) :
      CoreRule n d value .type (some (.type types))
  | const : CoreRule n d value .const (some (.const value))
  | enum {items : List Json} (h : value = .array items) :
      CoreRule n d value .enum (some (.enum items))
  | required {names : List String} (h : strings? value = some names) :
      CoreRule n d value .required (some (.required names))
  | properties {entries : List (String × NodeId)} (h : n.childMap? "properties" = some entries) :
      CoreRule n d value .properties (some (.properties entries))
  | ref {target : NodeId} (h : n.reference = some target) :
      CoreRule n d value .ref (some (.ref target))
  | allOf {schemas : List NodeId} (h : n.childList? "allOf" = some schemas) :
      CoreRule n d value .allOf (some (.allOf schemas))
  | anyOf {schemas : List NodeId} (h : n.childList? "anyOf" = some schemas) :
      CoreRule n d value .anyOf (some (.anyOf schemas))
  | oneOf {branches : List NodeId} (h : n.childList? "oneOf" = some branches) (hd : d = none) :
      CoreRule n d value .oneOf (some (.oneOf branches))
  | dispatch {branches : List NodeId} {found : Discriminator}
      (h : n.childList? "oneOf" = some branches) (hd : d = some found) :
      CoreRule n d value .oneOf
        (some (.dispatch found branches (n.declaredTypes == some [.object])))
  | discriminator : CoreRule n d value .discriminator none

theorem name_of_ofName? {name : String} {core : CoreKeyword}
    (h : CoreKeyword.ofName? name = some core) : name = core.name := by
  unfold CoreKeyword.ofName? at h
  have hname := List.find?_some h
  exact (beq_iff_eq.mp hname).symm

theorem resolved_eq_ok {α : Type} {n : Node} {keyword : CoreKeyword} {found : Option α} {a : α} :
    resolved n keyword found = .ok a ↔ found = some a := by
  cases found with
  | none => exact ⟨fun h => (by cases h), fun h => (by cases h)⟩
  | some b => exact ⟨fun h => congrArg some (Except.ok.inj h), fun h => (by cases h; rfl)⟩

/-- **What the core keywords compile to**, and nothing else. -/
theorem coreRule_eq_ok_iff {n : Node} {d : Option Discriminator} {value : Json}
    {core : CoreKeyword} {rule : Option Rule} :
    coreRule n d value core = .ok rule ↔ CoreRule n d value core rule := by
  constructor
  · intro h
    cases core with
    | type =>
      obtain ⟨types, htypes, rfl⟩ := bind_pure_eq_ok.mp h
      exact .type (resolved_eq_ok.mp htypes)
    | const =>
      cases h
      exact .const
    | enum =>
      cases value <;> cases h
      exact .enum rfl
    | required =>
      simp only [coreRule] at h
      split at h
      next names hnames =>
        cases h
        exact .required hnames
      next => cases h
    | properties =>
      obtain ⟨entries, hentries, rfl⟩ := bind_pure_eq_ok.mp h
      exact .properties (resolved_eq_ok.mp hentries)
    | ref =>
      obtain ⟨target, htarget, rfl⟩ := bind_pure_eq_ok.mp h
      exact .ref (resolved_eq_ok.mp htarget)
    | allOf =>
      obtain ⟨schemas, hschemas, rfl⟩ := bind_pure_eq_ok.mp h
      exact .allOf (resolved_eq_ok.mp hschemas)
    | anyOf =>
      obtain ⟨schemas, hschemas, rfl⟩ := bind_pure_eq_ok.mp h
      exact .anyOf (resolved_eq_ok.mp hschemas)
    | oneOf =>
      obtain ⟨branches, hbranches, h⟩ := bind_eq_ok.mp h
      cases d with
      | none =>
        cases h
        exact .oneOf (resolved_eq_ok.mp hbranches) rfl
      | some found =>
        cases h
        exact .dispatch (resolved_eq_ok.mp hbranches) rfl
    | discriminator =>
      cases h
      exact .discriminator
  · intro h
    cases h with
    | type h => exact bind_pure_eq_ok.mpr ⟨_, resolved_eq_ok.mpr h, rfl⟩
    | const => rfl
    | enum h =>
      subst h
      rfl
    | required h => simp only [coreRule, h]
    | properties h => exact bind_pure_eq_ok.mpr ⟨_, resolved_eq_ok.mpr h, rfl⟩
    | ref h => exact bind_pure_eq_ok.mpr ⟨_, resolved_eq_ok.mpr h, rfl⟩
    | allOf h => exact bind_pure_eq_ok.mpr ⟨_, resolved_eq_ok.mpr h, rfl⟩
    | anyOf h => exact bind_pure_eq_ok.mpr ⟨_, resolved_eq_ok.mpr h, rfl⟩
    | oneOf h hd =>
      subst hd
      exact bind_eq_ok.mpr ⟨_, resolved_eq_ok.mpr h, rfl⟩
    | dispatch h hd =>
      subst hd
      exact bind_eq_ok.mpr ⟨_, resolved_eq_ok.mpr h, rfl⟩
    | discriminator => rfl

/-- A keyword of the core has a rule of the core. -/
theorem coreRule_of_keywordRule (core : CoreKeyword) {id : NodeId} {n : Node}
    {d : Option Discriminator} {value : Json} {rule : Option Rule}
    (h : c.keywordRule g id n d core.name value = .ok rule) : CoreRule n d value core rule := by
  have hcore : CoreKeyword.ofName? core.name = some core := by cases core <;> decide
  unfold keywordRule at h
  rw [hcore] at h
  exact coreRule_eq_ok_iff.mp h

/-- A keyword is one of the core, or asserts nothing, or is left to a plugin. -/
theorem keywordRule_cases {id : NodeId} {n : Node} {d : Option Discriminator} {name : String}
    {value : Json} {rule : Option Rule} (h : c.keywordRule g id n d name value = .ok rule) :
    (∃ core, CoreKeyword.ofName? name = some core ∧ CoreRule n d value core rule) ∨
      (CoreKeyword.ofName? name = none ∧ rule = none) ∨
      ∃ plugin act, CoreKeyword.ofName? name = none ∧ c.registry.find? name = some plugin ∧
        plugin ⟨name, value, id, n, g⟩ = .ok act ∧ rule = act.map Rule.assertion := by
  unfold keywordRule at h
  split at h
  next core hcore => exact Or.inl ⟨core, hcore, coreRule_eq_ok_iff.mp h⟩
  next hcore =>
    split at h
    next => exact Or.inr (Or.inl ⟨hcore, (Except.ok.inj h).symm⟩)
    next =>
      unfold pluginRule at h
      split at h
      next plugin hplugin =>
        obtain ⟨act, hact, rfl⟩ := bind_pure_eq_ok.mp h
        exact Or.inr (Or.inr ⟨plugin, act, hcore, hplugin, hact, rfl⟩)
      next =>
        split at h
        next => cases h
        next => exact Or.inr (Or.inl ⟨hcore, (Except.ok.inj h).symm⟩)

theorem keywordRules_cons {id : NodeId} {n : Node} {d : Option Discriminator} {name : String}
    {value : Json} {rest : List (String × Json)} {ks : List CompiledKeyword} :
    c.keywordRules g id n d ((name, value) :: rest) = .ok ks ↔
      ∃ rule rules, c.keywordRule g id n d name value = .ok rule ∧
        c.keywordRules g id n d rest = .ok rules ∧
        ks = (rule.map (⟨name, ·⟩)).toList ++ rules := by
  rw [keywordRules, bind_eq_ok]
  constructor
  · rintro ⟨rule, hrule, h⟩
    obtain ⟨rules, hrules, h⟩ := bind_pure_eq_ok.mp h
    exact ⟨rule, rules, hrule, hrules, h.symm⟩
  · rintro ⟨rule, rules, hrule, hrules, rfl⟩
    exact ⟨rule, hrule, bind_pure_eq_ok.mpr ⟨rules, hrules, rfl⟩⟩

/-- Every keyword of a compiled node has been compiled, and its rule is there. -/
theorem keywordRule_of_mem {id : NodeId} {n : Node} {d : Option Discriminator}
    {keywords : List (String × Json)} {ks : List CompiledKeyword}
    (h : c.keywordRules g id n d keywords = .ok ks) {name : String} {value : Json}
    (hmem : (name, value) ∈ keywords) :
    ∃ rule, c.keywordRule g id n d name value = .ok rule ∧ ∀ r, rule = some r → ⟨name, r⟩ ∈ ks := by
  induction keywords generalizing ks with
  | nil => cases hmem
  | cons entry rest ih =>
    obtain ⟨rule, rules, hrule, hrules, rfl⟩ := keywordRules_cons.mp h
    rcases List.mem_cons.mp hmem with he | hmem
    · cases he
      refine ⟨rule, hrule, fun r hr => ?_⟩
      subst hr
      exact List.mem_append_left _ (List.mem_singleton.mpr rfl)
    · obtain ⟨r, hr, hks⟩ := ih hrules hmem
      exact ⟨r, hr, fun r' hr' => List.mem_append_right _ (hks r' hr')⟩

/-- Every rule of a compiled node comes from a keyword of that name. -/
theorem mem_of_keywordRules {id : NodeId} {n : Node} {d : Option Discriminator}
    {keywords : List (String × Json)} {ks : List CompiledKeyword}
    (h : c.keywordRules g id n d keywords = .ok ks) {k : CompiledKeyword} (hk : k ∈ ks) :
    ∃ value, (k.name, value) ∈ keywords ∧
      c.keywordRule g id n d k.name value = .ok (some k.rule) := by
  induction keywords generalizing ks with
  | nil =>
    cases h
    cases hk
  | cons entry rest ih =>
    obtain ⟨name, value⟩ := entry
    obtain ⟨rule, rules, hrule, hrules, rfl⟩ := keywordRules_cons.mp h
    rcases List.mem_append.mp hk with hk | hk
    · cases rule with
      | none => cases hk
      | some r =>
        cases List.mem_singleton.mp hk
        exact ⟨value, List.mem_cons_self, hrule⟩
    · obtain ⟨v, hv, hr⟩ := ih hrules hk
      exact ⟨v, List.mem_cons_of_mem _ hv, hr⟩

/-- A keyword that is written, and compiles to one rule only, has that rule and no other. -/
theorem only_rule {id : NodeId} {n : Node} {d : Option Discriminator} {ks : List CompiledKeyword}
    (h : c.keywordRules g id n d n.keywords = .ok ks) {name : String}
    (hkeyword : n.hasKeyword name = true) {only : Rule}
    (hrule : ∀ value rule, c.keywordRule g id n d name value = .ok rule → rule = some only) :
    (∃ k ∈ ks, k.name = name) ∧ ∀ k ∈ ks, k.name = name → k.rule = only := by
  constructor
  · obtain ⟨value, hvalue⟩ := Option.isSome_iff_exists.mp hkeyword
    obtain ⟨rule, hcompiled, hmem⟩ := keywordRule_of_mem h (mem_of_lookup hvalue)
    exact ⟨_, hmem _ (hrule _ _ hcompiled), rfl⟩
  · rintro ⟨name, rule⟩ hk rfl
    obtain ⟨value, _, hcompiled⟩ := mem_of_keywordRules h hk
    exact Option.some.inj (hrule _ _ hcompiled)

/-- **Where a rule comes from**: the `false` schema, or a keyword of the node. -/
theorem keywordRule_of_compileNode {id : NodeId} {n : Node} {node : CompiledNode}
    (h : c.compileNode g id n = .ok node) {k : CompiledKeyword} (hk : k ∈ node.keywords) :
    k.rule = .never ∨ ∃ d value, c.discriminatorOf g id n = .ok d ∧ (k.name, value) ∈ n.keywords ∧
      c.keywordRule g id n d k.name value = .ok (some k.rule) := by
  unfold compileNode at h
  unfold Node.keywords
  split at h
  next =>
    cases h
    cases hk
  next =>
    cases h
    cases List.mem_singleton.mp hk
    exact Or.inl rfl
  next keywords hbody =>
    obtain ⟨d, hd, h⟩ := bind_eq_ok.mp h
    obtain ⟨rules, hrules, rfl⟩ := bind_pure_eq_ok.mp h
    obtain ⟨value, hvalue, hrule⟩ := mem_of_keywordRules hrules hk
    rw [hbody]
    exact Or.inr ⟨d, value, hd, hvalue, hrule⟩

/-- Only the `false` schema never holds, and it has one rule. -/
theorem bool?_of_never {id : NodeId} {n : Node} {node : CompiledNode} {k : CompiledKeyword}
    (h : c.compileNode g id n = .ok node) (hk : k ∈ node.keywords) (hnever : k.rule = .never) :
    n.bool? = some false ∧ k.name = "false" := by
  unfold compileNode at h
  unfold Node.bool?
  split at h
  next =>
    cases h
    cases hk
  next hbody =>
    cases h
    cases List.mem_singleton.mp hk
    rw [hbody]
    exact ⟨rfl, rfl⟩
  next keywords hbody =>
    obtain ⟨d, _, h⟩ := bind_eq_ok.mp h
    obtain ⟨rules, hrules, rfl⟩ := bind_pure_eq_ok.mp h
    obtain ⟨value, _, hrule⟩ := mem_of_keywordRules hrules hk
    rw [hnever] at hrule
    rcases keywordRule_cases hrule with ⟨_, _, hcore⟩ | ⟨_, hnone⟩ | ⟨_, act, _, _, _, he⟩
    · cases hcore
    · cases hnone
    · cases act <;> cases he

/-- A rule of another name than that one is the rule of a keyword. -/
theorem keywordRule_of_ne_false {id : NodeId} {n : Node} {node : CompiledNode} {k : CompiledKeyword}
    (h : c.compileNode g id n = .ok node) (hk : k ∈ node.keywords) (hname : k.name ≠ "false") :
    ∃ d value, c.discriminatorOf g id n = .ok d ∧
      c.keywordRule g id n d k.name value = .ok (some k.rule) := by
  rcases keywordRule_of_compileNode h hk with hnever | ⟨d, value, hd, _, hrule⟩
  · exact absurd (bool?_of_never h hk hnever).2 hname
  · exact ⟨d, value, hd, hrule⟩

/-- The rules of a node that has a keyword are those of its keywords. -/
theorem keywordRules_of_compileNode {id : NodeId} {n : Node} {name : String}
    (hkeyword : n.hasKeyword name = true) {node : CompiledNode}
    (h : c.compileNode g id n = .ok node) :
    ∃ d, c.discriminatorOf g id n = .ok d ∧
      c.keywordRules g id n d n.keywords = .ok node.keywords := by
  unfold compileNode at h
  cases hbody : n.body with
  | bool b =>
    unfold Node.hasKeyword Node.keyword? Node.keywords at hkeyword
    rw [hbody] at hkeyword
    cases hkeyword
  | object keywords =>
    rw [hbody] at h
    obtain ⟨d, hd, h⟩ := bind_eq_ok.mp h
    obtain ⟨rules, hrules, rfl⟩ := bind_pure_eq_ok.mp h
    unfold Node.keywords
    rw [hbody]
    exact ⟨d, hd, hrules⟩

/-- A node whose discriminator is honoured has one, and its keywords are compiled with it. -/
theorem honoured_of_compileNode (hc : c.options.discriminator = true) {id : NodeId} {n : Node}
    (hkeyword : n.hasKeyword "discriminator" = true) {node : CompiledNode}
    (h : c.compileNode g id n = .ok node) :
    ∃ d, Discriminator.ofNode g id = .ok d ∧
      c.keywordRules g id n (some d) n.keywords = .ok node.keywords := by
  obtain ⟨found, hfound, hrules⟩ := keywordRules_of_compileNode hkeyword h
  unfold discriminatorOf at hfound
  rw [hc, hkeyword] at hfound
  obtain ⟨d, hd, rfl⟩ := bind_pure_eq_ok.mp hfound
  exact ⟨d, hd, hrules⟩

/-! ## 2. Lists of nodes -/

theorem compileNodes_cons_some {id : NodeId} {rest : List NodeId} {n : Node}
    (hn : g.node? id = some n) {l : List (NodeId × CompiledNode)} :
    c.compileNodes g (id :: rest) = .ok l ↔
      ∃ node nodes, c.compileNode g id n = .ok node ∧ c.compileNodes g rest = .ok nodes ∧
        l = (id, node) :: nodes := by
  simp only [compileNodes, hn]
  rw [bind_eq_ok]
  constructor
  · rintro ⟨node, hnode, h⟩
    obtain ⟨nodes, hnodes, h⟩ := bind_pure_eq_ok.mp h
    exact ⟨node, nodes, hnode, hnodes, h.symm⟩
  · rintro ⟨node, nodes, hnode, hnodes, rfl⟩
    exact ⟨node, hnode, bind_pure_eq_ok.mpr ⟨nodes, hnodes, rfl⟩⟩

theorem compileNodes_cons_none {id : NodeId} {rest : List NodeId} (hn : g.node? id = none) :
    c.compileNodes g (id :: rest) = c.compileNodes g rest := by
  simp only [compileNodes, hn]

/-- A list of nodes can be compiled when each of its nodes can. -/
theorem exists_compileNodes_iff {ids : List NodeId} :
    (∃ l, c.compileNodes g ids = .ok l) ↔
      ∀ id ∈ ids, ∀ n, g.node? id = some n → ∃ node, c.compileNode g id n = .ok node := by
  induction ids with
  | nil => exact ⟨fun _ _ h => absurd h List.not_mem_nil, fun _ => ⟨[], rfl⟩⟩
  | cons id rest ih =>
    rw [List.forall_mem_cons, ← ih]
    cases hn : g.node? id with
    | none =>
      rw [compileNodes_cons_none hn]
      exact ⟨fun h => ⟨fun _ h' => (by cases h'), h⟩, fun h => h.2⟩
    | some n =>
      constructor
      · rintro ⟨l, hl⟩
        obtain ⟨node, nodes, hnode, hnodes, _⟩ := (compileNodes_cons_some hn).mp hl
        exact ⟨fun m hm => (by cases hm; exact ⟨node, hnode⟩), nodes, hnodes⟩
      · rintro ⟨hnode, nodes, hnodes⟩
        obtain ⟨node, hnode⟩ := hnode n rfl
        exact ⟨_, (compileNodes_cons_some hn).mpr ⟨node, nodes, hnode, hnodes, rfl⟩⟩

/-- A compiled list holds its nodes under their numbers. -/
theorem lookup_of_compileNodes {ids : List NodeId} {l : List (NodeId × CompiledNode)}
    (h : c.compileNodes g ids = .ok l) {id : NodeId} (hid : id ∈ ids) {n : Node}
    (hn : g.node? id = some n) :
    ∃ node, c.compileNode g id n = .ok node ∧ l.lookup id = some node := by
  induction ids generalizing l with
  | nil => cases hid
  | cons first rest ih =>
    cases hfirst : g.node? first with
    | none =>
      rw [compileNodes_cons_none hfirst] at h
      have hne : id ≠ first := fun e => by rw [e, hfirst] at hn; cases hn
      exact ih h ((List.mem_cons.mp hid).resolve_left hne)
    | some m =>
      obtain ⟨node, nodes, hnode, hnodes, rfl⟩ := (compileNodes_cons_some hfirst).mp h
      by_cases he : id = first
      · subst he
        rw [hn] at hfirst
        cases hfirst
        exact ⟨node, hnode, List.lookup_cons_self⟩
      · obtain ⟨node', hnode', hl⟩ := ih hnodes ((List.mem_cons.mp hid).resolve_left he)
        refine ⟨node', hnode', ?_⟩
        rw [List.lookup_cons, beq_eq_false_iff_ne.mpr he]
        exact hl

/-- A compiled list holds nothing else. -/
theorem lookup_of_not_mem {ids : List NodeId} {l : List (NodeId × CompiledNode)}
    (h : c.compileNodes g ids = .ok l) {id : NodeId} (hid : id ∉ ids) : l.lookup id = none := by
  induction ids generalizing l with
  | nil =>
    cases h
    rfl
  | cons first rest ih =>
    obtain ⟨hne, hrest⟩ := not_or.mp (mt List.mem_cons.mpr hid)
    cases hfirst : g.node? first with
    | none =>
      rw [compileNodes_cons_none hfirst] at h
      exact ih h hrest
    | some m =>
      obtain ⟨node, nodes, _, hnodes, rfl⟩ := (compileNodes_cons_some hfirst).mp h
      rw [List.lookup_cons, beq_eq_false_iff_ne.mpr hne]
      exact ih hnodes hrest

/-! ## 3. Graphs -/

/-- The compiled nodes of a graph by number, where some have been compiled. -/
def place (g : Graph) (compiled : List (NodeId × CompiledNode)) : Array CompiledNode :=
  (g.ids.map fun id =>
    match compiled.lookup id with
    | some node => node
    | none => .inert (g.location id)).toArray

/-- The last step of compiling a graph: no cycle in place is among the reached nodes. -/
def finish (c : Compiler) (g : Graph) (root : NodeId) (compiled : List (NodeId × CompiledNode)) :
    Except SchemaError Program :=
  match g.inPlaceCycle (g.ids.filter (reached g root).contains) with
  | some closing => .error ⟨g.location closing, .unboundedRecursion⟩
  | none => .ok ⟨place g compiled, root, c.options.failFast, c.options.maxDepth⟩

theorem compile_eq (root : NodeId) :
    c.compile g root = c.compileNodes g (reached g root) >>= c.finish g root := rfl

theorem compile_eq_ok_iff {root : NodeId} {p : Program} :
    c.compile g root = .ok p ↔
      ∃ compiled, c.compileNodes g (reached g root) = .ok compiled ∧
        g.inPlaceCycle (g.ids.filter (reached g root).contains) = none ∧
        p = ⟨place g compiled, root, c.options.failFast, c.options.maxDepth⟩ := by
  rw [compile_eq, bind_eq_ok]
  unfold finish
  constructor
  · rintro ⟨compiled, hcompiled, h⟩
    cases hcycle : g.inPlaceCycle (g.ids.filter (reached g root).contains) with
    | some closing =>
      rw [hcycle] at h
      cases h
    | none =>
      rw [hcycle] at h
      exact ⟨compiled, hcompiled, rfl, (Except.ok.inj h).symm⟩
  · rintro ⟨compiled, hcompiled, hcycle, rfl⟩
    refine ⟨compiled, hcompiled, ?_⟩
    rw [hcycle]

/-- **There is a program exactly when every reached node can be compiled and no cycle in place is
    reached.** -/
theorem exists_compile_iff {root : NodeId} :
    (∃ p, c.compile g root = .ok p) ↔
      (∀ id ∈ reached g root, ∀ n, g.node? id = some n →
        ∃ node, c.compileNode g id n = .ok node) ∧
      g.inPlaceCycle (g.ids.filter (reached g root).contains) = none := by
  rw [← exists_compileNodes_iff]
  constructor
  · rintro ⟨p, hp⟩
    obtain ⟨compiled, hcompiled, hcycle, _⟩ := compile_eq_ok_iff.mp hp
    exact ⟨⟨compiled, hcompiled⟩, hcycle⟩
  · rintro ⟨⟨compiled, hcompiled⟩, hcycle⟩
    exact ⟨_, compile_eq_ok_iff.mpr ⟨compiled, hcompiled, hcycle, rfl⟩⟩

theorem size_place (compiled : List (NodeId × CompiledNode)) :
    (place g compiled).size = g.size := by
  simp [place, Graph.ids]

theorem getElem?_place {compiled : List (NodeId × CompiledNode)} {id : NodeId} (h : id < g.size) :
    (place g compiled)[id]? = some ((compiled.lookup id).getD (.inert (g.location id))) := by
  rw [place, List.getElem?_toArray, List.getElem?_map, Graph.ids, List.getElem?_range h,
    Option.map_some]
  cases compiled.lookup id <;> rfl

theorem lt_size_of_node? {id : NodeId} {n : Node} (h : g.node? id = some n) : id < g.size :=
  (Array.getElem?_eq_some_iff.mp h).1

theorem size_of_compile {root : NodeId} {p : Program} (h : c.compile g root = .ok p) :
    p.nodes.size = g.size := by
  obtain ⟨compiled, _, _, rfl⟩ := compile_eq_ok_iff.mp h
  exact size_place compiled

/-- A reached node of a program is the compiled one. -/
theorem node_of_reached {root : NodeId} {p : Program} (h : c.compile g root = .ok p) {id : NodeId}
    (hid : id ∈ reached g root) {n : Node} (hn : g.node? id = some n) :
    ∃ node, c.compileNode g id n = .ok node ∧ p.nodes[id]? = some node := by
  obtain ⟨compiled, hcompiled, _, rfl⟩ := compile_eq_ok_iff.mp h
  obtain ⟨node, hnode, hlookup⟩ := lookup_of_compileNodes hcompiled hid hn
  refine ⟨node, hnode, ?_⟩
  rw [getElem?_place (lt_size_of_node? hn), hlookup]
  rfl

/-- A node of a program that is not reached asserts nothing. -/
theorem node_of_not_reached {root : NodeId} {p : Program} (h : c.compile g root = .ok p)
    {id : NodeId} (hid : id ∉ reached g root) (hlt : id < g.size) :
    p.nodes[id]? = some (.inert (g.location id)) := by
  obtain ⟨compiled, hcompiled, _, rfl⟩ := compile_eq_ok_iff.mp h
  rw [getElem?_place hlt, lookup_of_not_mem hcompiled hid]
  rfl

/-- **A node that asserts something** is reached, and compiled from the node of the graph. -/
theorem compileNode_of_keyword {root : NodeId} {p : Program} (h : c.compile g root = .ok p)
    {id : NodeId} {node : CompiledNode} (hnode : p.nodes[id]? = some node)
    {keyword : CompiledKeyword} (hk : keyword ∈ node.keywords) :
    id ∈ reached g root ∧ ∃ n, g.node? id = some n ∧ c.compileNode g id n = .ok node := by
  have hlt : id < g.size := size_of_compile h ▸ (Array.getElem?_eq_some_iff.mp hnode).1
  by_cases hid : id ∈ reached g root
  · have hn : g.node? id = some g.nodes[id] := Array.getElem?_eq_getElem hlt
    obtain ⟨node', hcompiled, hnode'⟩ := node_of_reached h hid hn
    rw [hnode] at hnode'
    cases hnode'
    exact ⟨hid, _, hn, hcompiled⟩
  · have hinert := node_of_not_reached h hid hlt
    rw [hnode] at hinert
    cases hinert
    cases hk

/-! ## 4. What compiling depends on -/

section Comparison

variable {c' : Compiler} {Q : SchemaError → Prop}

theorem keywordRules_sameUnless {id : NodeId} {n : Node} {d : Option Discriminator}
    {keywords : List (String × Json)} (h : ∀ name value, (name, value) ∈ keywords →
      SameUnless Q (c.keywordRule g id n d name value) (c'.keywordRule g id n d name value)) :
    SameUnless Q (c.keywordRules g id n d keywords) (c'.keywordRules g id n d keywords) := by
  induction keywords with
  | nil => exact Or.inl rfl
  | cons entry rest ih =>
    have hrest := ih fun name value hmem => h name value (List.mem_cons_of_mem _ hmem)
    unfold keywordRules
    exact (h _ _ List.mem_cons_self).bind fun _ _ => hrest.bind fun _ _ => Or.inl rfl

theorem compileNode_sameUnless (hd : c.options.discriminator = c'.options.discriminator)
    {id : NodeId} {n : Node} (h : ∀ d name value, (name, value) ∈ n.keywords →
      SameUnless Q (c.keywordRule g id n d name value) (c'.keywordRule g id n d name value)) :
    SameUnless Q (c.compileNode g id n) (c'.compileNode g id n) := by
  unfold compileNode discriminatorOf
  rw [hd]
  unfold Node.keywords at h
  cases hbody : n.body with
  | bool b => cases b <;> exact Or.inl rfl
  | object keywords =>
    rw [hbody] at h
    refine SameUnless.bind (Or.inl rfl) fun d _ => ?_
    exact (keywordRules_sameUnless (h d)).bind fun _ _ => Or.inl rfl

/-- **Compilers that treat keywords alike, but for some errors,** compile nodes alike, but for these
    errors. -/
theorem compileNodes_sameUnless (hd : c.options.discriminator = c'.options.discriminator)
    {ids : List NodeId} (h : ∀ id ∈ ids, ∀ n, g.node? id = some n →
      ∀ d name value, (name, value) ∈ n.keywords → SameUnless Q
        (c.keywordRule g id n d name value) (c'.keywordRule g id n d name value)) :
    SameUnless Q (c.compileNodes g ids) (c'.compileNodes g ids) := by
  induction ids with
  | nil => exact Or.inl rfl
  | cons id rest ih =>
    obtain ⟨hfirst, hrest⟩ := List.forall_mem_cons.mp h
    unfold compileNodes
    cases hn : g.node? id with
    | none => exact ih hrest
    | some n =>
      refine (compileNode_sameUnless hd (hfirst n hn)).bind fun _ _ => ?_
      exact (ih hrest).bind fun _ _ => Or.inl rfl

/-- The mode of reports and the limit of depth are written into the program and play no part in
    compiling it. -/
theorem compile_congr (hr : c.registry = c'.registry)
    (hs : c.options.strictKeywords = c'.options.strictKeywords)
    (hd : c.options.discriminator = c'.options.discriminator) (g : Graph) (root : NodeId) :
    c'.compile g root = (c.compile g root).map fun p =>
      { p with failFast := c'.options.failFast, maxDepth := c'.options.maxDepth } := by
  have hnodes : c.compileNodes g (reached g root) = c'.compileNodes g (reached g root) :=
    sameUnless_false.mp <| compileNodes_sameUnless hd fun _ _ _ _ _ _ _ _ => by
      unfold keywordRule pluginRule
      rw [hr, hs]
      exact Or.inl rfl
  rw [compile_eq, compile_eq, ← hnodes]
  cases c.compileNodes g (reached g root) with
  | error e => rfl
  | ok compiled =>
    show finish _ g root compiled = (finish _ g root compiled).map _
    unfold finish
    cases g.inPlaceCycle (g.ids.filter (reached g root).contains) <;> rfl

end Comparison

theorem compile_failFast (registry : Registry) (o : Options) (failFast : Bool) (g : Graph)
    (root : NodeId) :
    (Compiler.mk registry { o with failFast }).compile g root
      = ((Compiler.mk registry o).compile g root).map fun p => { p with failFast } := by
  rw [@compile_congr ⟨registry, o⟩ ⟨registry, { o with failFast }⟩ rfl rfl rfl]
  cases hp : (Compiler.mk registry o).compile g root with
  | error e => rfl
  | ok p =>
    obtain ⟨_, _, _, rfl⟩ := compile_eq_ok_iff.mp hp
    rfl

theorem compile_maxDepth (registry : Registry) (o : Options) (maxDepth : Nat) (g : Graph)
    (root : NodeId) :
    (Compiler.mk registry { o with maxDepth }).compile g root
      = ((Compiler.mk registry o).compile g root).map fun p => { p with maxDepth } := by
  rw [@compile_congr ⟨registry, o⟩ ⟨registry, { o with maxDepth }⟩ rfl rfl rfl]
  cases hp : (Compiler.mk registry o).compile g root with
  | error e => rfl
  | ok p =>
    obtain ⟨_, _, _, rfl⟩ := compile_eq_ok_iff.mp hp
    rfl

end TaggedSchema.Compiler
