import TaggedSchema.Proofs.Analysis
import TaggedSchema.Proofs.Compilation
import TaggedSchema.Proofs.Evaluation
import TaggedSchema.Proofs.Reach

/-!
# What it takes to pass

When a compiled node finds nothing wrong with a value, in whatever frame, every keyword of the
schema has had its say. This file reads off what that means for the keywords that a discriminator
looks at: a pure reference passes what its target passes (`passes_target`), `properties` hands the
members on (`passes_property`), required members are there (`isSome_of_requires`), and the value
equals what `const` or `enum` allows (`sameValue_of_allows`).
-/

namespace TaggedSchema

/-- The node finds nothing wrong with the value, in some frame and within some number of
    evaluations. -/
def Program.Passes (p : Program) (id : NodeId) (value : Json) : Prop :=
  ∃ fuel f, p.errors fuel id value f = []

/-- Every rule of a node that passes finds nothing. -/
theorem Program.Passes.rule {p : Program} {id : NodeId} {value : Json} (h : p.Passes id value)
    {node : CompiledNode} (hnode : p.nodes[id]? = some node) {keyword : CompiledKeyword}
    (hk : keyword ∈ node.keywords) :
    ∃ fuel f, keyword.rule.errors (p.errors fuel) keyword.name value f = [] := by
  obtain ⟨fuel, f, hnone⟩ := h
  cases fuel with
  | zero => cases hnone
  | succ fuel =>
    simp only [errors, hnode] at hnone
    split at hnone
    next => cases hnone
    next => exact ⟨fuel, f, List.flatMap_eq_nil_iff.mp hnone keyword hk⟩

namespace Compiler

variable {c : Compiler} {store : Store} {g : Graph} {root id : NodeId} {p : Program} {n : Node}
  {value : Json}

/-- The rule of a keyword of a reached node is in the program. -/
theorem rule_of_keyword (hp : c.compile g root = .ok p) (hid : id ∈ reached g root)
    (hn : g.node? id = some n) {name : String} {written : Json}
    (hk : (name, written) ∈ n.keywords) :
    ∃ node d rule, p.nodes[id]? = some node ∧ c.keywordRule g id n d name written = .ok rule ∧
      ∀ r, rule = some r → ⟨name, r⟩ ∈ node.keywords := by
  obtain ⟨node, hcompiled, hplace⟩ := node_of_reached hp hid hn
  obtain ⟨d, _, hrules⟩ := keywordRules_of_compileNode (Node.hasKeyword_of_mem hk) hcompiled
  obtain ⟨rule, hrule, hmem⟩ := keywordRule_of_mem hrules hk
  exact ⟨node, d, rule, hplace, hrule, hmem⟩

/-- A core keyword of a node that passes finds nothing. -/
theorem passes_core (core : CoreKeyword) (hp : c.compile g root = .ok p)
    (hid : id ∈ reached g root) (hn : g.node? id = some n) (hpass : p.Passes id value)
    {written : Json}
    (hk : n.keyword? core.name = some written) :
    ∃ d rule, CoreRule n d written core rule ∧
      ∀ r, rule = some r → ∃ fuel f, r.errors (p.errors fuel) core.name value f = [] := by
  obtain ⟨node, d, rule, hnode, hrule, hmem⟩ := rule_of_keyword hp hid hn (mem_of_lookup hk)
  exact ⟨d, rule, coreRule_of_keywordRule core hrule, fun r hr => hpass.rule hnode (hmem r hr)⟩

/-- A value that passes is of a declared type. -/
theorem accepts_of_declaredTypes [Uri.Library] (hg : g.Resolved store)
    (hp : c.compile g root = .ok p) (hid : id ∈ reached g root) (hn : g.node? id = some n)
    (hpass : p.Passes id value)
    {types : List InstanceType} (htypes : n.declaredTypes = some types) :
    types.any (·.accepts value) = true := by
  obtain ⟨written, hk⟩ := hg.exists_type hn htypes
  obtain ⟨d, rule, hrule, hnone⟩ := passes_core .type hp hid hn hpass hk
  cases hrule with
  | type h =>
    rw [htypes] at h
    cases h
    obtain ⟨fuel, f, hfound⟩ := hnone _ rfl
    simp only [Rule.errors] at hfound
    split at hfound
    next h => exact h
    next => cases hfound

/-- A value that passes is an object where nothing else is declared. -/
theorem object_of_passes [Uri.Library] (hg : g.Resolved store) (hp : c.compile g root = .ok p)
    (hid : id ∈ reached g root) (hn : g.node? id = some n) (hpass : p.Passes id value)
    (htypes : n.declaredTypes = some [.object]) : ∃ members, value = .object members := by
  have haccepts := accepts_of_declaredTypes hg hp hid hn hpass htypes
  cases value with
  | object members => exact ⟨members, rfl⟩
  | _ => cases haccepts

/-- What passes a pure reference passes its target. -/
theorem passes_target (hp : c.compile g root = .ok p) (hid : id ∈ reached g root) {target : NodeId}
    (hrefers : g.Refers id target) (hpass : p.Passes id value) : p.Passes target value := by
  obtain ⟨n, hn, hpure, ht⟩ := hrefers
  obtain ⟨written, hk⟩ := Option.isSome_iff_exists.mp (Bool.and_eq_true_iff.mp hpure).1
  obtain ⟨d, rule, hrule, hnone⟩ := passes_core .ref hp hid hn hpass hk
  cases hrule with
  | ref h =>
    rw [ht] at h
    cases h
    obtain ⟨fuel, f, hfound⟩ := hnone _ rfl
    exact ⟨fuel, _, hfound⟩

/-- What passes a node passes every node on its chain of pure references. -/
theorem passes_chain [Uri.Library] (hg : g.Resolved store) (hroot : root < g.size)
    (hp : c.compile g root = .ok p) (hid : id ∈ reached g root) {target : NodeId}
    (hchain : Relation.ReflTransGen g.Refers id target) (hpass : p.Passes id value) :
    target ∈ reached g root ∧ p.Passes target value := by
  induction hchain with
  | refl => exact ⟨hid, hpass⟩
  | tail _ hrefers ih =>
    obtain ⟨hmid, hmidpass⟩ := ih
    have ⟨n, hn, _, ht⟩ := hrefers
    exact ⟨mem_reached_of_reference hg hroot hmid hn ht, passes_target hp hmid hrefers hmidpass⟩

/-- What a property of an object that passes is, passes the schema of the property. -/
theorem passes_property [Uri.Library] (hg : g.Resolved store) (hroot : root < g.size)
    (hp : c.compile g root = .ok p) (hid : id ∈ reached g root) (hn : g.node? id = some n)
    {members : List (String × Json)} (hpass : p.Passes id (.object members)) {name : String}
    {child : NodeId} (hchild : n.property? name = some child) {raw : Json}
    (hraw : members.lookup name = some raw) : child ∈ reached g root ∧ p.Passes child raw := by
  obtain ⟨entries, hentries, hlookup⟩ := Option.bind_eq_some_iff.mp hchild
  have hchildren := Node.children?_of_childMap? hentries
  have hmem : (name, child) ∈ entries := mem_of_lookup hlookup
  have hreached : child ∈ reached g root :=
    mem_reached_of_child hg hroot hid hn hchildren rfl (List.mem_map.mpr ⟨_, hmem, rfl⟩)
  obtain ⟨written, hk⟩ := Option.isSome_iff_exists.mp (hg.hasKeyword_of_children hn hchildren)
  obtain ⟨d, rule, hrule, hnone⟩ := passes_core .properties hp hid hn hpass hk
  cases hrule with
  | properties h =>
    rw [hentries] at h
    cases h
    obtain ⟨fuel, f, hfound⟩ := hnone _ rfl
    have hproperty := List.flatMap_eq_nil_iff.mp hfound _ hmem
    dsimp only at hproperty
    rw [hraw] at hproperty
    exact ⟨hreached, fuel, _, hproperty⟩

/-- An object that passes has the members that are required. -/
theorem isSome_of_requires (hp : c.compile g root = .ok p) (hid : id ∈ reached g root)
    (hn : g.node? id = some n) {members : List (String × Json)}
    (hpass : p.Passes id (.object members)) {name : String} (hrequires : n.requires name = true) :
    (members.lookup name).isSome = true := by
  unfold Node.requires at hrequires
  split at hrequires
  next items hitems =>
    obtain ⟨written, hk, harray⟩ := Option.bind_eq_some_iff.mp hitems
    obtain ⟨item, hitem, hname⟩ := List.any_eq_true.mp hrequires
    obtain ⟨d, rule, hrule, hnone⟩ := passes_core .required hp hid hn hpass hk
    cases hrule with
    | required hnames =>
      obtain ⟨fuel, f, hfound⟩ := hnone _ rfl
      unfold strings? at hnames
      rw [harray, Option.bind_some] at hnames
      obtain ⟨name', hmem, hitem'⟩ := mem_of_mapM_eq_some hnames hitem
      rw [eq_of_beq hname] at hitem'
      cases hitem'
      have hmissing := List.filter_eq_nil_iff.mp (List.map_eq_nil_iff.mp hfound) name hmem
      simpa using hmissing
  next => cases hrequires

/-- A value that passes equals one that is allowed. -/
theorem sameValue_of_allows (hp : c.compile g root = .ok p) (hid : id ∈ reached g root)
    (hn : g.node? id = some n) (hpass : p.Passes id value) {values : List Json}
    (hallows : Discriminator.Allows n values) : ∃ v ∈ values, value.sameValue v = true := by
  cases hallows with
  | @const constant hk =>
    obtain ⟨d, rule, hrule, hnone⟩ := passes_core .const hp hid hn hpass hk
    cases hrule
    obtain ⟨fuel, f, hfound⟩ := hnone _ rfl
    refine ⟨constant, List.mem_singleton.mpr rfl, ?_⟩
    simp only [Rule.errors] at hfound
    split at hfound
    next h => exact h
    next => cases hfound
  | enum _ henum _ =>
    obtain ⟨d, rule, hrule, hnone⟩ := passes_core .enum hp hid hn hpass henum
    cases hrule with
    | enum h =>
      cases h
      obtain ⟨fuel, f, hfound⟩ := hnone _ rfl
      simp only [Rule.errors] at hfound
      split at hfound
      next h => exact List.any_eq_true.mp h
      next => cases hfound

end Compiler

end TaggedSchema
