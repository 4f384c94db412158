import TaggedSchema.Proofs.Unreached

/-!
# What a registry decides

The keywords of the core are compiled by the compiler itself and annotations to nothing, whatever a
registry has under their names. A registry is asked about all other keywords (`IsOpen`), and only
where a node is compiled (`Graph.Opens`).

So the mode in which keywords without a plugin are refused adds the errors about them and changes
nothing else (`Compiler.strict_adds_refusals`), and registries that have the same plugins for the
open keywords of a graph are as good as one another (`Compiler.registries_do_not_interfere`).
-/

namespace TaggedSchema

/-! ## 1. Open keywords -/

/-- The keyword is neither in the core nor an annotation. -/
def IsOpen (name : String) : Prop :=
  CoreKeyword.ofName? name = none ∧ isAnnotationKeyword name = false

instance (name : String) : Decidable (IsOpen name) := inferInstanceAs (Decidable (_ ∧ _))

namespace Graph

/-- **A node that the root leads to has the open keyword**, and stands at the location. -/
inductive Opens (g : Graph) (root : NodeId) : Location → String → Prop where
  | intro {id : NodeId} {n : Node} {name : String} {value : Json}
      (hpath : Relation.ReflTransGen g.Leads root id) (hn : g.node? id = some n)
      (hkeyword : (name, value) ∈ n.keywords) (hopen : IsOpen name) : Opens g root n.location name

/-- The open keywords of the nodes that the root leads to. -/
def openKeywords (g : Graph) (root : NodeId) : List (Location × String) :=
  (Compiler.reached g root).flatMap fun id =>
    match g.node? id with
    | some n => (n.keywords.filter fun k => decide (IsOpen k.1)).map fun k => (n.location, k.1)
    | none => []

variable {g : Graph} {root : NodeId} {l : Location} {name : String}

theorem mem_openKeywords : (l, name) ∈ g.openKeywords root ↔ g.Opens root l name := by
  unfold openKeywords
  rw [List.mem_flatMap]
  constructor
  · rintro ⟨id, hid, hmem⟩
    cases hn : g.node? id with
    | none =>
      rw [hn] at hmem
      cases hmem
    | some n =>
      rw [hn] at hmem
      obtain ⟨⟨_, value⟩, hk, he⟩ := List.mem_map.mp hmem
      obtain ⟨hkeyword, hopen⟩ := List.mem_filter.mp hk
      cases he
      exact .intro (mem_reached_iff.mp hid) hn hkeyword (of_decide_eq_true hopen)
  · rintro @⟨id, n, name, value, hpath, hn, hkeyword, hopen⟩
    refine ⟨id, mem_reached_iff.mpr hpath, ?_⟩
    rw [hn]
    exact List.mem_map.mpr ⟨(name, value),
      List.mem_filter.mpr ⟨hkeyword, decide_eq_true hopen⟩, rfl⟩

end Graph

namespace Compiler

variable {c c' : Compiler} {r r' : Registry} {o : Options} {g : Graph} {root id : NodeId} {n : Node}
  {d : Option Discriminator} {name : String} {value : Json}

/-- A keyword that is not open is compiled in one way only. -/
theorem keywordRule_of_not_open (h : ¬ IsOpen name) :
    c.keywordRule g id n d name value = c'.keywordRule g id n d name value := by
  unfold keywordRule
  cases hcore : CoreKeyword.ofName? name with
  | some core => rfl
  | none =>
    have hsilent : isAnnotationKeyword name = true :=
      Bool.of_not_eq_false fun hfalse => h ⟨hcore, hfalse⟩
    simp only [hsilent, if_true]

/-- An open keyword is compiled by its plugin. -/
theorem keywordRule_of_open (h : IsOpen name) :
    c.keywordRule g id n d name value = c.pluginRule g id n name value := by
  unfold keywordRule
  rw [h.1, h.2]
  rfl

/-- Compilers that treat the open keywords of compiled nodes alike, but for some errors, compile
    alike, but for these errors. -/
theorem compile_sameUnless {o' : Options} {Q : SchemaError → Prop}
    (hd : o.discriminator = o'.discriminator) (hf : o.failFast = o'.failFast)
    (hm : o.maxDepth = o'.maxDepth)
    (h : ∀ id n name value, Relation.ReflTransGen g.Leads root id → g.node? id = some n →
      (name, value) ∈ n.keywords → IsOpen name → SameUnless Q
        ((mk r o).pluginRule g id n name value) ((mk r' o').pluginRule g id n name value)) :
    SameUnless Q ((mk r o).compile g root) ((mk r' o').compile g root) := by
  rw [compile_eq, compile_eq]
  refine SameUnless.bind (compileNodes_sameUnless hd fun id hid n hn d name value hmem => ?_)
    fun compiled _ => ?_
  · by_cases hopen : IsOpen name
    · rw [keywordRule_of_open hopen, keywordRule_of_open hopen]
      exact h id n name value (Graph.mem_reached_iff.mp hid) hn hmem hopen
    · exact Or.inl (keywordRule_of_not_open hopen)
  · unfold finish
    dsimp only
    rw [hf, hm]
    exact Or.inl rfl

/-! ## 2. The strict mode -/

/-- The compiler that refuses keywords without a plugin, whatever the options say about them. -/
abbrev strict (r : Registry) (o : Options) : Compiler := ⟨r, { o with strictKeywords := true }⟩

/-- The compiler that ignores them. -/
abbrev lax (r : Registry) (o : Options) : Compiler := ⟨r, { o with strictKeywords := false }⟩

/-- **An error about an unknown keyword**: an open keyword of a compiled node for which the registry
    has no plugin, at its place. -/
inductive Unknown (r : Registry) (g : Graph) (root : NodeId) : SchemaError → Prop where
  | intro {l : Location} {name : String} (hopens : g.Opens root l name)
      (hfree : r.find? name = none) : Unknown r g root ⟨l.join name, .unknownKeyword name⟩

theorem Unknown.kind_eq {e : SchemaError} (h : Unknown r g root e) : e.kind = .unknownKeyword := by
  cases h
  rfl

/-- The strict mode refuses a keyword that is unknown, and does nothing else. -/
theorem pluginRule_strict :
    (strict r o).pluginRule g id n name value
      = if (r.find? name).isSome then
          (lax r o).pluginRule g id n name value
        else .error ⟨n.location.join name, .unknownKeyword name⟩ := by
  unfold pluginRule
  cases r.find? name <;> rfl

theorem strict_sameUnless :
    SameUnless (Unknown r g root) ((strict r o).compile g root) ((lax r o).compile g root) := by
  refine compile_sameUnless rfl rfl rfl fun id n name value hpath hn hmem hopen => ?_
  rw [pluginRule_strict]
  cases hplugin : r.find? name with
  | some plugin => exact Or.inl rfl
  | none => exact Or.inr ⟨_, rfl, .intro (.intro hpath hn hmem hopen) hplugin⟩

/-- Where the strict mode compiles a graph, no keyword is unknown. -/
theorem not_unknown_of_strict {p : Program} (hp : (strict r o).compile g root = .ok p)
    {e : SchemaError} : ¬ Unknown r g root e := by
  rintro ⟨@⟨id, n, name, value, hpath, hn, hmem, hopen⟩, hfree⟩
  obtain ⟨node, hnode, _⟩ := node_of_reached hp (Graph.mem_reached_iff.mpr hpath) hn
  obtain ⟨d, _, hrules⟩ := keywordRules_of_compileNode (Node.hasKeyword_of_mem hmem) hnode
  obtain ⟨rule, hrule, _⟩ := keywordRule_of_mem hrules hmem
  rw [keywordRule_of_open hopen, pluginRule_strict, hfree] at hrule
  cases hrule

/-- A program of the strict mode is the program without it, and there is one where no keyword is
    unknown. -/
theorem compile_strict_eq_ok_iff {p : Program} :
    (strict r o).compile g root = .ok p ↔
      (lax r o).compile g root = .ok p ∧ ∀ e, ¬ Unknown r g root e := by
  constructor
  · intro hp
    refine ⟨?_, fun e => not_unknown_of_strict hp⟩
    rcases @strict_sameUnless r o g root with heq | ⟨e, he, _⟩
    · exact heq.symm.trans hp
    · cases hp.symm.trans he
  · rintro ⟨hp, hnone⟩
    rcases @strict_sameUnless r o g root with heq | ⟨e, _, hunknown⟩
    · exact heq.trans hp
    · exact absurd hunknown (hnone e)

/-- An error of the strict mode is about an unknown keyword, or it is the error without it. -/
theorem unknown_of_strict {e : SchemaError} (he : (strict r o).compile g root = .error e) :
    Unknown r g root e ∨ (lax r o).compile g root = .error e := by
  rcases @strict_sameUnless r o g root with heq | ⟨e', he', hunknown⟩
  · exact Or.inr (heq.symm.trans he)
  · cases he.symm.trans he'
    exact Or.inl hunknown

/-- **The strict mode only adds refusals.** For every registry, all other options, every graph and
    every root: a program of the strict mode is the program that there is without it, and there is
    one exactly if no keyword is unknown. Every error of the strict mode is about an unknown keyword
    or is the error without it; so where there is a program without it, the strict mode fails exactly
    if a keyword is unknown, and names such a keyword at its place. -/
theorem strict_adds_refusals (r : Registry) (o : Options) (g : Graph) (root : NodeId) :
    (∀ p, (strict r o).compile g root = .ok p ↔
      (lax r o).compile g root = .ok p ∧ ∀ e, ¬ Unknown r g root e) ∧
    (∀ e, (strict r o).compile g root = .error e →
      Unknown r g root e ∨ (lax r o).compile g root = .error e) ∧
    ∀ p, (lax r o).compile g root = .ok p →
      ((∃ e, (strict r o).compile g root = .error e) ↔ ∃ e, Unknown r g root e) ∧
      ∀ e, (strict r o).compile g root = .error e →
        Unknown r g root e ∧ e.kind = .unknownKeyword := by
  refine ⟨fun p => compile_strict_eq_ok_iff, fun e => unknown_of_strict, fun p hp => ?_⟩
  have hfault (e : SchemaError) (he : (strict r o).compile g root = .error e) :
      Unknown r g root e :=
    (unknown_of_strict he).resolve_right fun he' => by cases hp.symm.trans he'
  refine ⟨⟨fun ⟨e, he⟩ => ⟨e, hfault e he⟩, fun ⟨e, hunknown⟩ => ?_⟩,
    fun e he => ⟨hfault e he, (hfault e he).kind_eq⟩⟩
  cases hstrict : (strict r o).compile g root with
  | error e' => exact ⟨e', rfl⟩
  | ok q => exact absurd hunknown (not_unknown_of_strict hstrict)

/-- A definition with a note that no keyword of the registry is, beside a schema that does not refer
    to it. -/
def noted : Json :=
  .object [("$defs", .object [("Draft", .object [("x-note", .bool true)])]),
    ("type", .string "string")]

/-- The same definition, and a reference to it. -/
def notedReferred : Json :=
  .object [("$defs", .object [("Draft", .object [("x-note", .bool true)])]),
    ("$ref", .string "#/$defs/Draft")]

/-- The note in the definition is refused where a reference leads there, and does not count where
    none does. -/
theorem strict_adds_refusals_noted :
    (∃ g p, Graph.ofDocument noted = .ok g ∧
      (lax .default .default).compile g g.root = .ok p ∧
      (strict .default .default).compile g g.root = .ok p) ∧
    ∃ g p, Graph.ofDocument notedReferred = .ok g ∧
      (lax .default .default).compile g g.root = .ok p ∧
      ∃ e, (strict .default .default).compile g g.root = .error e ∧
        Unknown .default g g.root e ∧
        e.location = ⟨Store.defaultBase, ⟨["$defs", "Draft", "x-note"]⟩⟩ := by
  have hspared : ((Graph.ofDocument noted).toOption.any fun g =>
      ((lax .default .default).compile g g.root).toOption.any fun _ =>
        (g.openKeywords g.root).all fun k => (Registry.default.find? k.2).isSome) = true := by
    decide +kernel
  have hrefused : ((Graph.ofDocument notedReferred).toOption.any fun g =>
      ((lax .default .default).compile g g.root).toOption.any fun _ =>
        (reported? ((strict .default .default).compile g g.root)).any fun e => decide
          (e.location = ⟨Store.defaultBase, ⟨["$defs", "Draft", "x-note"]⟩⟩)) = true := by
    decide +kernel
  constructor
  · obtain ⟨g, hg, hspared⟩ := any_toOption_eq_true.mp hspared
    obtain ⟨p, hp, hknown⟩ := any_toOption_eq_true.mp hspared
    obtain ⟨hok, _⟩ := strict_adds_refusals .default .default g g.root
    refine ⟨g, p, hg, hp, (hok p).mpr ⟨hp, ?_⟩⟩
    rintro _ ⟨hopens, hfree⟩
    have hfound := List.all_eq_true.mp hknown _ (Graph.mem_openKeywords.mpr hopens)
    rw [hfree] at hfound
    cases hfound
  · obtain ⟨g, hg, hrefused⟩ := any_toOption_eq_true.mp hrefused
    obtain ⟨p, hp, hrefused⟩ := any_toOption_eq_true.mp hrefused
    obtain ⟨e, hstrict, hlocation⟩ := any_reported?_eq_true.mp hrefused
    obtain ⟨_, _, hfails⟩ := strict_adds_refusals .default .default g g.root
    exact ⟨g, p, hg, hp, e, hstrict, ((hfails p hp).2 e hstrict).1, of_decide_eq_true hlocation⟩

end Compiler

/-! ## 3. Registries -/

namespace Registry

variable {r r' : Registry} {name other : String} {P : String → Prop}

/-- One call that changes a registry, under a name. -/
inductive Edit (name : String) : Registry → Registry → Prop where
  | register (r : Registry) (plugin : Plugin) : Edit name r (r.register name plugin)
  | unregister (r : Registry) : Edit name r (r.unregister name)

/-- The registry comes from another by calls under names of a set. -/
def Edited (P : String → Prop) : Registry → Registry → Prop :=
  Relation.ReflTransGen fun r r' => ∃ name, P name ∧ Edit name r r'

theorem find?_unregister (h : other ≠ name) : (r.unregister name).find? other = r.find? other := by
  unfold unregister find?
  dsimp only
  induction r.plugins with
  | nil => rfl
  | cons entry rest ih =>
    obtain ⟨key, plugin⟩ := entry
    rw [List.filter_cons, List.lookup_cons]
    by_cases hkey : key = name
    · have hother : (other == key) = false := beq_eq_false_iff_ne.mpr (hkey ▸ h)
      simp only [hkey, beq_self_eq_true, Bool.not_true, Bool.false_eq_true, if_false]
      rw [ih, ← hkey, hother]
    · have hkept : (!(key == name)) = true := by simp [hkey]
      rw [if_pos hkept, List.lookup_cons, ih]

/-- **A call changes what a registry has under its own name** only. -/
theorem Edit.find?_eq (hedit : Edit name r r') (h : other ≠ name) :
    r'.find? other = r.find? other := by
  cases hedit with
  | register plugin =>
    unfold Registry.register Registry.find?
    rw [List.lookup_cons, beq_eq_false_iff_ne.mpr h]
    exact find?_unregister h
  | unregister => exact find?_unregister h

/-- **Calls under names of a set leave all other names alone.** -/
theorem Edited.find?_eq (hedited : Edited P r r') (h : ¬ P name) :
    r'.find? name = r.find? name := by
  induction hedited with
  | refl => rfl
  | tail _ hstep ih =>
    obtain ⟨edited, hP, hedit⟩ := hstep
    have hother : name ≠ edited := by
      rintro rfl
      exact h hP
    exact (hedit.find?_eq hother).trans ih

end Registry

namespace Compiler

variable {r r' : Registry} {o : Options} {g : Graph} {root : NodeId}

/-- Registries that have the same plugins for the open keywords of a graph compile it alike. -/
theorem compile_eq_of_find?_eq
    (h : ∀ l name, g.Opens root l name → r.find? name = r'.find? name) :
    (mk r o).compile g root = (mk r' o).compile g root := by
  refine sameUnless_false.mp (compile_sameUnless rfl rfl rfl
    fun id n name value hpath hn hmem hopen => Or.inl ?_)
  unfold pluginRule
  rw [h n.location name (.intro hpath hn hmem hopen)]

/-- What has a rule is a keyword of the core, with the rule of the core, or an open keyword, with
    what its plugin gives. -/
theorem keywordRule_some_cases {c : Compiler} {id : NodeId} {n : Node} {d : Option Discriminator}
    {name : String} {value : Json} {rule : Rule}
    (h : c.keywordRule g id n d name value = .ok (some rule)) :
    (∃ core, CoreKeyword.ofName? name = some core ∧ CoreRule n d value core (some rule)) ∨
      (IsOpen name ∧ ∃ plugin act, c.registry.find? name = some plugin ∧
        plugin ⟨name, value, id, n, g⟩ = .ok (some act) ∧ rule = .assertion act) := by
  by_cases hopen : IsOpen name
  · refine Or.inr ⟨hopen, ?_⟩
    rw [keywordRule_of_open hopen] at h
    unfold pluginRule at h
    split at h
    next plugin hplugin =>
      obtain ⟨act, hact, he⟩ := bind_pure_eq_ok.mp h
      cases act with
      | none => cases he
      | some act => exact ⟨plugin, act, hplugin, hact, (Option.some.inj he).symm⟩
    next => split at h <;> cases h
  · unfold keywordRule at h
    split at h
    next core hcore => exact Or.inl ⟨core, hcore, coreRule_eq_ok_iff.mp h⟩
    next hcore =>
      split at h
      next => cases h
      next hsilent => exact absurd ⟨hcore, Bool.eq_false_iff.mpr hsilent⟩ hopen

/-- What is known of a keyword that a program holds: it is no annotation; under a name of the core
    stands the rule of the core; and the rule of a plugin stands under an open name, for which the
    registry has the plugin. -/
structure Tiered (r : Registry) (g : Graph) (id : NodeId) (k : CompiledKeyword) : Prop where
  asserts : isAnnotationKeyword k.name = false
  core : ∀ core, CoreKeyword.ofName? k.name = some core →
    ∃ n d value, g.node? id = some n ∧ CoreRule n d value core (some k.rule)
  plugin : ∀ act, k.rule = .assertion act → IsOpen k.name ∧ ∃ n value plugin,
    g.node? id = some n ∧ r.find? k.name = some plugin ∧
      plugin ⟨k.name, value, id, n, g⟩ = .ok (some act)

theorem tiered_of_mem {p : Program} (hp : (mk r o).compile g root = .ok p) {id : NodeId}
    {node : CompiledNode} (hnode : p.nodes[id]? = some node) {k : CompiledKeyword}
    (hk : k ∈ node.keywords) : Tiered r g id k := by
  obtain ⟨_, n, hn, hcompiled⟩ := compileNode_of_keyword hp hnode hk
  rcases keywordRule_of_compileNode hcompiled hk with hnever | ⟨d, value, _, _, hrule⟩
  · obtain ⟨_, hname⟩ := bool?_of_never hcompiled hk hnever
    refine ⟨hname ▸ by decide, fun core hcore => ?_, fun act hact => ?_⟩
    · rw [hname] at hcore
      cases hcore
    · rw [hnever] at hact
      cases hact
  · rcases keywordRule_some_cases hrule with
      ⟨core, hcore, hspec⟩ | ⟨hopen, plugin, act, hfind, hact, he⟩
    · have hsilent : isAnnotationKeyword core.name = false := by cases core <;> decide
      refine ⟨name_of_ofName? hcore ▸ hsilent, fun core' hcore' => ?_, fun act hact => ?_⟩
      · cases hcore.symm.trans hcore'
        exact ⟨n, d, value, hn, hspec⟩
      · rw [hact] at hspec
        cases hspec
    · refine ⟨hopen.2, fun core hcore => ?_, fun act' hact' => ?_⟩
      · cases hopen.1.symm.trans hcore
      · cases he.symm.trans hact'
        exact ⟨hopen, n, value, plugin, hn, hfind, hact⟩

/-- **Registries do not interfere.** For all options, every graph and every root: registries with the
    same plugins for the open keywords of the nodes that the root leads to compile to the same
    program, or fail with the same error. So do a registry and what is made of it by any calls that
    register or unregister other names only, be they names of the core or annotations. In a program
    every keyword of the core has the rule of the core, no annotation has a rule, and what a plugin
    asserts stands under an open keyword for which it is registered. -/
theorem registries_do_not_interfere (r : Registry) (o : Options) (g : Graph) (root : NodeId) :
    (∀ r', (∀ l name, g.Opens root l name → r.find? name = r'.find? name) →
      (mk r o).compile g root = (mk r' o).compile g root) ∧
    (∀ r', r.Edited (fun name => ∀ l, ¬ g.Opens root l name) r' →
      (mk r o).compile g root = (mk r' o).compile g root) ∧
    (∀ r', r.Edited (fun name => ¬ IsOpen name) r' →
      (mk r o).compile g root = (mk r' o).compile g root) ∧
    ∀ p, (mk r o).compile g root = .ok p → ∀ id node, p.nodes[id]? = some node →
      ∀ k ∈ node.keywords, Tiered r g id k := by
  refine ⟨fun r' h => compile_eq_of_find?_eq h, fun r' hedited => ?_, fun r' hedited => ?_,
    fun p hp id node hnode k hk => tiered_of_mem hp hnode hk⟩
  · refine compile_eq_of_find?_eq fun l name hopens => ?_
    exact (hedited.find?_eq fun hnot => hnot l hopens).symm
  · refine compile_eq_of_find?_eq fun l name hopens => ?_
    obtain ⟨_, _, _, hopen⟩ := hopens
    exact (hedited.find?_eq fun hnot => hnot hopen).symm

/-- A schema for texts of two characters or more, with a definition. -/
def texts : Json :=
  .object [("definitions", .object [("none", .bool false)]),
    ("minLength", .number (.int 2 (by decide))), ("type", .string "string")]

/-- Plugins for a keyword of the core and for an annotation, and the removal of a keyword that the
    schema has not, make no difference. -/
theorem registries_do_not_interfere_texts :
    ∃ g p, Graph.ofDocument texts = .ok g ∧ (mk .default .default).compile g g.root = .ok p ∧
      ∀ plugin, (mk (((Registry.default.register "type" plugin).register "definitions"
        plugin).unregister "maxLength") .default).compile g g.root = .ok p := by
  have hall : ((Graph.ofDocument texts).toOption.any fun g =>
      ((mk .default .default).compile g g.root).toOption.any fun _ =>
        (g.openKeywords g.root).all fun k => k.2 == "minLength") = true := by
    decide +kernel
  obtain ⟨g, hg, hall⟩ := any_toOption_eq_true.mp hall
  obtain ⟨p, hp, hall⟩ := any_toOption_eq_true.mp hall
  have hclosed (name : String) (hname : name ≠ "minLength") (l : Location) :
      ¬ g.Opens g.root l name := fun hopens =>
    hname (eq_of_beq (List.all_eq_true.mp hall _ (Graph.mem_openKeywords.mpr hopens)))
  refine ⟨g, p, hg, hp, fun plugin => ?_⟩
  obtain ⟨_, hedited, _⟩ := registries_do_not_interfere .default .default g g.root
  rw [← hedited _ ?_]
  · exact hp
  · exact ((Relation.ReflTransGen.single ⟨"type", hclosed _ (by decide), .register _ plugin⟩).tail
      ⟨"definitions", hclosed _ (by decide), .register _ plugin⟩).tail
      ⟨"maxLength", hclosed _ (by decide), .unregister _⟩

end Compiler

end TaggedSchema
