import TaggedSchema.Proofs.Cycles
import TaggedSchema.Proofs.Subschemas

/-!
# What compiling does not look at

Compiling goes from node to node along the edges that it visits, and the analysis of a discriminator,
the check of `additionalProperties` and the search for cycles go along the same edges. So what a graph
compiles to depends on the nodes that the root leads to, step by step, and on nothing else but the
number of nodes and their locations (`Compiler.compile_eq_of_agrees`). The proof follows the functions
one by one: each of them gives the same on two graphs that agree below its node
(`Graph.AgreesBelow`), and goes on to nodes below which they agree as well.
-/

namespace TaggedSchema

/-! ## 1. Graphs that agree below a node -/

namespace Graph

/-- The node has the other under a keyword that is no definition, or refers to it. -/
def Leads (g : Graph) (id target : NodeId) : Prop :=
  ∃ n, g.node? id = some n ∧ (n.Holds target ∨ n.reference = some target)

/-- **The graphs agree below a node**: they have the same number of nodes at the same locations, and
    the same nodes wherever the node leads. What else they hold is arbitrary. -/
structure AgreesBelow (g g' : Graph) (id : NodeId) : Prop where
  size : g'.size = g.size
  location : ∀ a, g'.location a = g.location a
  node : ∀ a, Relation.ReflTransGen g.Leads id a → g'.node? a = g.node? a

variable {g g' : Graph} {id next : NodeId} {n : Node}

theorem AgreesBelow.of_leads (h : g.AgreesBelow g' id) (hleads : g.Leads id next) :
    g.AgreesBelow g' next :=
  ⟨h.size, h.location, fun a ha => h.node a (ha.head hleads)⟩

theorem AgreesBelow.node_eq (h : g.AgreesBelow g' id) : g'.node? id = g.node? id := h.node id .refl

theorem AgreesBelow.child (h : g.AgreesBelow g' id) (hn : g.node? id = some n)
    (hchild : n.Holds next) : g.AgreesBelow g' next :=
  h.of_leads ⟨n, hn, Or.inl hchild⟩

theorem AgreesBelow.target (h : g.AgreesBelow g' id) (hn : g.node? id = some n)
    (htarget : n.reference = some next) : g.AgreesBelow g' next :=
  h.of_leads ⟨n, hn, Or.inr htarget⟩

/-- Writing another node at the location of one that the root does not lead to. -/
theorem agreesBelow_set (hid : ¬ Relation.ReflTransGen g.Leads next id) (hn : g.node? id = some n)
    {m : Node} (hlocation : m.location = n.location) :
    g.AgreesBelow { g with nodes := g.nodes.setIfInBounds id m } next := by
  have hother {a : NodeId} (ha : id ≠ a) : (g.nodes.setIfInBounds id m)[a]? = g.nodes[a]? :=
    Array.getElem?_setIfInBounds_ne ha
  refine ⟨Array.size_setIfInBounds, fun a => ?_, fun a ha => hother fun he => hid (he ▸ ha)⟩
  unfold location node?
  by_cases ha : id = a
  · subst ha
    have hlt : id < g.nodes.size := (Array.getElem?_eq_some_iff.mp hn).1
    rw [Array.getElem?_setIfInBounds_self_of_lt hlt, show g.nodes[id]? = some n from hn]
    exact hlocation
  · rw [hother ha]

end Graph

theorem Node.holds_of_children {n : Node} {name : String} {c : Children} {child : NodeId}
    (hname : isDefinitions name = false) (h : n.children? name = some c) (hchild : child ∈ c.ids) :
    n.Holds child :=
  ⟨name, c, mem_of_lookup h, hname, hchild⟩

theorem Node.holds_of_childList {n : Node} {name : String} {ids : List NodeId} {child : NodeId}
    (hname : isDefinitions name = false) (h : n.childList? name = some ids)
    (hchild : child ∈ ids) : n.Holds child :=
  holds_of_children hname (children?_of_childList? h) hchild

theorem Node.holds_of_child? {n : Node} {name : String} {child : NodeId}
    (hname : isDefinitions name = false) (h : n.child? name = some child) : n.Holds child := by
  unfold child? at h
  split at h
  next id hchild =>
    cases h
    exact holds_of_children hname hchild (List.mem_singleton.mpr rfl)
  next => cases h

/-! ## 2. Searches -/

namespace Graph

variable {edges edges' : NodeId → List NodeId} {S : NodeId → Prop}

/-- A visit looks at the edges of what it visits. -/
theorem visit_congr (hclosed : ∀ a, S a → ∀ b ∈ edges a, S b)
    (hsame : ∀ a, S a → edges' a = edges a) {fuel : Nat} {seen : List NodeId} {id : NodeId}
    (hid : S id) : visit edges' fuel seen id = visit edges fuel seen id := by
  induction fuel generalizing seen id with
  | zero => rfl
  | succ fuel ih =>
    unfold visit
    rw [hsame id hid]
    split
    · rfl
    · exact List.foldl_ext _ _ _ fun seen next hnext => ih (hclosed id hid next hnext)

theorem foldlM_congr {m : Type → Type} [Monad m] {α β : Type} {step step' : β → α → m β}
    {elements : List α} (h : ∀ a ∈ elements, ∀ b, step' b a = step b a) (b : β) :
    elements.foldlM step' b = elements.foldlM step b := by
  induction elements generalizing b with
  | nil => rfl
  | cons a rest ih =>
    obtain ⟨hfirst, hrest⟩ := List.forall_mem_cons.mp h
    rw [List.foldlM_cons, List.foldlM_cons, hfirst]
    exact congrArg _ (funext fun b => ih hrest b)

/-- The search for cycles looks at the edges of what it visits. -/
theorem searchCycle_congr (hclosed : ∀ a, S a → ∀ b ∈ edges a, S b)
    (hsame : ∀ a, S a → edges' a = edges a) {fuel : Nat} {opened done : List NodeId} {id : NodeId}
    (hid : S id) : searchCycle edges' fuel opened done id = searchCycle edges fuel opened done id := by
  induction fuel generalizing opened done id with
  | zero => rfl
  | succ fuel ih =>
    unfold searchCycle
    dsimp only
    rw [hsame id hid]
    refine congrArg (· >>= _) (foldlM_congr (fun next hnext done => ?_) done)
    rw [ih (hclosed id hid next hnext)]

variable {g g' : Graph} {id : NodeId}

/-- What is no node has no edges, so a visit is bounded wherever it starts. -/
theorem bounded_edges (g : Graph) (id : NodeId) : g.Bounded (Compiler.edges g) id := by
  cases hn : g.node? id with
  | some n => exact Or.inl (Array.getElem?_eq_some_iff.mp hn).1
  | none =>
    refine Or.inr ?_
    unfold Compiler.edges
    rw [hn]

/-- **The visit from a root comes to what the root leads to**, and to nothing else. -/
theorem mem_reached_iff {root : NodeId} :
    id ∈ Compiler.reached g root ↔ Relation.ReflTransGen g.Leads root id := by
  obtain ⟨hroot, hclosed⟩ := reach_closed (fun _ b _ => g.bounded_edges b) (g.bounded_edges root)
  constructor
  · exact forall_mem_visit (S := Relation.ReflTransGen g.Leads root)
      (fun a ha b hb => ha.tail (Compiler.mem_edges.mp hb)) (fun _ h => absurd h List.not_mem_nil)
      .refl id
  · intro h
    induction h with
    | refl => exact hroot
    | tail _ hleads ih => exact hclosed _ ih _ (Compiler.mem_edges.mpr hleads)

theorem AgreesBelow.edges_eq (h : g.AgreesBelow g' id) :
    Compiler.edges g' id = Compiler.edges g id := by
  unfold Compiler.edges
  rw [h.node_eq]

theorem AgreesBelow.of_mem_edges (h : g.AgreesBelow g' id) {target : NodeId}
    (htarget : target ∈ Compiler.edges g id) : g.AgreesBelow g' target :=
  h.of_leads (Compiler.mem_edges.mp htarget)

theorem AgreesBelow.reached_eq (h : g.AgreesBelow g' id) :
    Compiler.reached g' id = Compiler.reached g id := by
  unfold Compiler.reached reach
  rw [h.size]
  exact visit_congr (fun a ha b hb => AgreesBelow.of_mem_edges ha hb)
    (fun a ha => AgreesBelow.edges_eq ha) h

/-- The edges in place are edges that the compiler visits. -/
theorem leads_of_inPlaceEdges {target : NodeId} (h : target ∈ g.inPlaceEdges id) :
    g.Leads id target := by
  obtain ⟨n, hn, ⟨schemas, hschemas, hmem⟩ | htarget⟩ := mem_inPlaceEdges.mp h
  · exact ⟨n, hn, Or.inl (Node.holds_of_childList rfl hschemas hmem)⟩
  · exact ⟨n, hn, Or.inr htarget⟩

theorem inPlaceCycle_congr {starts : List NodeId} (h : ∀ id ∈ starts, g.AgreesBelow g' id)
    (hsize : g'.size = g.size) : g'.inPlaceCycle starts = g.inPlaceCycle starts := by
  have hsame (a : NodeId) (ha : g.AgreesBelow g' a) : g'.inPlaceEdges a = g.inPlaceEdges a := by
    unfold inPlaceEdges
    rw [ha.node_eq]
  have hsearch (id : NodeId) (hid : id ∈ starts) (done : List NodeId) :
      searchCycle g'.inPlaceEdges (g'.size + 1) [] done id
        = searchCycle g.inPlaceEdges (g.size + 1) [] done id := by
    rw [hsize]
    exact searchCycle_congr (fun a ha b hb => AgreesBelow.of_leads ha (leads_of_inPlaceEdges hb)) hsame
      (h id hid)
  unfold inPlaceCycle
  rw [foldlM_congr fun id hid done => by rw [hsearch id hid done]]

/-! ## 3. Chains of references -/

/-- A chain of references is followed in the same way, and stays among the nodes that agree. -/
theorem AgreesBelow.chainEnd_congr (h : g.AgreesBelow g' id) (fuel : Nat) (passed : List NodeId) :
    g'.chainEnd? fuel passed id = g.chainEnd? fuel passed id ∧
      ∀ target, g.chainEnd? fuel passed id = some target → g.AgreesBelow g' target := by
  induction fuel generalizing passed id with
  | zero => exact ⟨rfl, fun _ hend => by cases hend⟩
  | succ fuel ih =>
    have hstay {target : NodeId} (hend : some id = some target) : g.AgreesBelow g' target :=
      Option.some.inj hend ▸ h
    unfold chainEnd?
    rw [h.node_eq]
    cases hn : g.node? id with
    | none => exact ⟨rfl, fun _ => hstay⟩
    | some n =>
      dsimp only
      by_cases hpure : n.isPureReference = true
      · simp only [hpure, Bool.not_true, Bool.false_eq_true, if_false]
        by_cases hpassed : passed.contains id = true
        · simp only [hpassed, if_true, true_and]
          exact fun _ hend => by cases hend
        · simp only [hpassed, Bool.false_eq_true, if_false]
          cases htarget : n.reference with
          | none => exact ⟨rfl, fun _ => hstay⟩
          | some target => exact ih (h.target hn htarget) _
      · simp only [hpure, Bool.not_false, if_true, true_and]
        exact fun _ => hstay

theorem AgreesBelow.deref_congr (h : g.AgreesBelow g' id) :
    g'.deref id = g.deref id ∧ ∀ target, g.deref id = .ok target → g.AgreesBelow g' target := by
  obtain ⟨hsame, hend⟩ := h.chainEnd_congr (g.size + 1) []
  unfold deref
  rw [h.size, hsame, h.location]
  refine ⟨rfl, fun target htarget => hend target ?_⟩
  cases hchain : g.chainEnd? (g.size + 1) [] id with
  | none =>
    rw [hchain] at htarget
    cases htarget
  | some found =>
    rw [hchain] at htarget
    exact congrArg some (Except.ok.inj htarget)

end Graph

/-! ## 4. Discriminators -/

namespace Discriminator

open TaggedSchema.Graph

variable {g g' : Graph} {id : NodeId}

theorem branchEnd_congr (h : g.AgreesBelow g' id) (owner branch : NodeId) (property : String)
    (fuel : Nat) (passed : List NodeId) :
    branchEnd g' owner branch property fuel passed id
        = branchEnd g owner branch property fuel passed id ∧
      ∀ target, branchEnd g owner branch property fuel passed id = .ok target →
        g.AgreesBelow g' target := by
  induction fuel generalizing passed id with
  | zero =>
    unfold branchEnd
    rw [h.location]
    exact ⟨rfl, fun _ hend => by cases hend⟩
  | succ fuel ih =>
    have hstay {target : NodeId} (hend : Except.ok id = (.ok target : Except SchemaError NodeId)) :
        g.AgreesBelow g' target := Except.ok.inj hend ▸ h
    unfold branchEnd
    rw [h.node_eq, h.location]
    cases hn : g.node? id with
    | none => exact ⟨rfl, fun _ => hstay⟩
    | some n =>
      dsimp only
      by_cases hpure : n.isPureReference = true
      · simp only [hpure, Bool.not_true, Bool.false_eq_true, if_false]
        cases htarget : n.reference with
        | none => exact ⟨rfl, fun _ => hstay⟩
        | some target =>
          dsimp only
          by_cases howner : target = owner
          · simp only [howner, if_true, true_and]
            exact fun _ hend => by cases hend
          · simp only [howner, if_false]
            by_cases hpassed : passed.contains target = true
            · simp only [hpassed, if_true, true_and]
              exact fun _ hend => by cases hend
            · simp only [hpassed, Bool.false_eq_true, if_false]
              exact ih (h.target hn htarget) _
      · simp only [hpure, Bool.not_false, if_true, true_and]
        exact fun _ => hstay

theorem branchTags_congr (h : g.AgreesBelow g' id) {concrete : Node}
    (hn : g.node? id = some concrete) (property : String) :
    branchTags g' concrete property = branchTags g concrete property := by
  unfold branchTags
  cases htag : concrete.property? property with
  | none => rfl
  | some tagSchema =>
    obtain ⟨entries, hentries, hlookup⟩ := Option.bind_eq_some_iff.mp htag
    have hchild : concrete.Holds tagSchema :=
      Node.holds_of_children rfl (Node.children?_of_childMap? hentries)
        (List.mem_map_of_mem (f := fun entry => entry.2) (mem_of_lookup hlookup))
    obtain ⟨hsame, hbelow⟩ := (h.child hn hchild).deref_congr
    dsimp only
    rw [hsame]
    refine bind_congr_ok fun target htarget => ?_
    rw [(hbelow target htarget).node_eq]

theorem addBranch_congr {branch : NodeId} (h : g.AgreesBelow g' branch) (owner : NodeId)
    (ownerRequires : Bool) (property : String) (table : DispatchTable) (index : Nat) :
    addBranch g' owner ownerRequires property table index branch
      = addBranch g owner ownerRequires property table index branch := by
  obtain ⟨hsame, hbelow⟩ :=
    branchEnd_congr h owner branch property (g.size + 1) [owner, branch]
  unfold addBranch derefBranch
  rw [h.size, hsame]
  refine bind_congr_ok fun id hend => ?_
  rw [(hbelow id hend).node_eq]
  cases hn : g.node? id with
  | none => rfl
  | some concrete =>
    dsimp only
    rw [branchTags_congr (hbelow id hend) hn]

theorem addBranches_congr {branches : List NodeId}
    (h : ∀ branch ∈ branches, g.AgreesBelow g' branch) (owner : NodeId) (ownerRequires : Bool)
    (property : String) (table : DispatchTable) (index : Nat) :
    addBranches g' owner ownerRequires property table index branches
      = addBranches g owner ownerRequires property table index branches := by
  induction branches generalizing table index with
  | nil => rfl
  | cons branch rest ih =>
    obtain ⟨hfirst, hrest⟩ := List.forall_mem_cons.mp h
    unfold addBranches
    rw [addBranch_congr hfirst]
    exact congrArg _ (funext fun table => ih hrest table (index + 1))

/-- **The discriminator of a node depends on what is below the node.** -/
theorem ofNode_congr {owner : NodeId} (h : g.AgreesBelow g' owner) :
    ofNode g' owner = ofNode g owner := by
  unfold ofNode ofBranches
  rw [h.node_eq, h.location]
  cases hn : g.node? owner with
  | none => rfl
  | some node =>
    dsimp only [Option.bind_some]
    refine bind_congr_ok fun property _ => ?_
    cases hbranches : node.childList? "oneOf" with
    | none => rfl
    | some branches =>
      have hbelow : ∀ branch ∈ branches, g.AgreesBelow g' branch := fun branch hbranch =>
        h.child hn (Node.holds_of_childList rfl hbranches hbranch)
      dsimp only
      rw [addBranches_congr hbelow]

end Discriminator

/-! ## 5. Keywords -/

namespace Builtin

/-- All that a keyword looks at in the graph are the children of its node. -/
def LooksBelow (compile : Occurrence → Except SchemaError (Option Check)) : Prop :=
  ∀ keyword value id n (g g' : Graph), isDefinitions keyword = false →
    (∀ child, n.Holds child → g'.node? child = g.node? child) →
    compile ⟨keyword, value, id, n, g'⟩ = compile ⟨keyword, value, id, n, g⟩

/-- A keyword that does not look at the graph. -/
theorem looksBelow_of_eq {compile : Occurrence → Except SchemaError (Option Check)}
    (h : ∀ keyword value id n (g g' : Graph),
      compile ⟨keyword, value, id, n, g'⟩ = compile ⟨keyword, value, id, n, g⟩) :
    LooksBelow compile :=
  fun keyword value id n g g' _ _ => h keyword value id n g g'

variable [Pattern.Library]

theorem looksBelow_additionalProperties : LooksBelow additionalProperties := by
  intro keyword value id n g g' hkeyword hbelow
  refine bind_congr_ok fun schema hschema => bind_congr_ok fun patterns _ => ?_
  have hchild : n.Holds schema :=
    Node.holds_of_child? hkeyword (Occurrence.child?_of_subschema hschema)
  dsimp only
  rw [hbelow schema hchild]

/-- **No built-in keyword looks further than to the children of its node.** -/
theorem looksBelow_of_mem {name : String}
    {compile : Occurrence → Except SchemaError (Option Check)} (h : (name, compile) ∈ keywords) :
    LooksBelow compile := by
  have hall : ∀ entry ∈ keywords, LooksBelow entry.2 := by
    simp only [keywords, List.forall_mem_cons]
    -- the graph is not even mentioned by any other of them
    and_intros
    all_goals first
      | exact looksBelow_of_eq fun _ _ _ _ _ _ => rfl
      | exact looksBelow_additionalProperties
      | exact fun _ h => absurd h List.not_mem_nil
  exact hall _ h

theorem plugin_eq_of_agrees {name : String} {plugin : Plugin}
    (h : Registry.default.find? name = some plugin) {value : Json} {id : NodeId} {n : Node}
    {g g' : Graph} (hbelow : ∀ child, n.Holds child → g'.node? child = g.node? child) :
    plugin ⟨name, value, id, n, g'⟩ = plugin ⟨name, value, id, n, g⟩ := by
  obtain ⟨compile, hmem, rfl⟩ := Registry.exists_compile_of_find? h
  unfold Builtin.plugin
  rw [looksBelow_of_mem hmem _ _ _ _ _ _ (isDefinitions_eq_false_of_mem hmem) hbelow]

end Builtin

/-! ## 6. Compiling -/

namespace Compiler

variable {c : Compiler} {g g' : Graph} {id : NodeId} {n : Node}

variable [Pattern.Library]

theorem keywordRule_eq_of_agrees (hregistry : c.registry = .default)
    (hbelow : ∀ child, n.Holds child → g'.node? child = g.node? child) (d : Option Discriminator)
    (name : String) (value : Json) :
    c.keywordRule g' id n d name value = c.keywordRule g id n d name value := by
  unfold keywordRule pluginRule
  rw [hregistry]
  cases hplugin : Registry.default.find? name with
  | none => rfl
  | some plugin =>
    dsimp only
    rw [Builtin.plugin_eq_of_agrees hplugin hbelow]

theorem keywordRules_eq_of_agrees (hregistry : c.registry = .default)
    (hbelow : ∀ child, n.Holds child → g'.node? child = g.node? child) (d : Option Discriminator)
    (keywords : List (String × Json)) :
    c.keywordRules g' id n d keywords = c.keywordRules g id n d keywords := by
  induction keywords with
  | nil => rfl
  | cons entry rest ih =>
    unfold keywordRules
    rw [ih, keywordRule_eq_of_agrees hregistry hbelow]

/-- A node is compiled from what is below it. -/
theorem compileNode_eq_of_agrees (hregistry : c.registry = .default) (h : g.AgreesBelow g' id)
    (hn : g.node? id = some n) : c.compileNode g' id n = c.compileNode g id n := by
  have hbelow (child : NodeId) (hchild : n.Holds child) : g'.node? child = g.node? child :=
    (h.child hn hchild).node_eq
  unfold compileNode discriminatorOf
  rw [Discriminator.ofNode_congr h]
  simp only [keywordRules_eq_of_agrees hregistry hbelow]

theorem compileNodes_eq_of_agrees (hregistry : c.registry = .default) {ids : List NodeId}
    (h : ∀ id ∈ ids, g.AgreesBelow g' id) : c.compileNodes g' ids = c.compileNodes g ids := by
  induction ids with
  | nil => rfl
  | cons id rest ih =>
    obtain ⟨hfirst, hrest⟩ := List.forall_mem_cons.mp h
    unfold compileNodes
    rw [hfirst.node_eq, ih hrest]
    cases hn : g.node? id with
    | none => rfl
    | some n =>
      dsimp only
      rw [compileNode_eq_of_agrees hregistry hfirst hn]

/-- **What a graph compiles to depends on the nodes that the root leads to** and, of all others, on
    their number and their locations only. -/
theorem compile_eq_of_agrees (hregistry : c.registry = .default) {start : NodeId}
    (h : g.AgreesBelow g' start) : c.compile g' start = c.compile g start := by
  have hreached : ∀ id ∈ reached g start, g.AgreesBelow g' id :=
    Graph.forall_mem_visit (fun a ha b hb => Graph.AgreesBelow.of_mem_edges ha hb)
      (fun _ h => absurd h List.not_mem_nil) h
  have hids : g'.ids = g.ids := congrArg List.range h.size
  have hstarts : ∀ id ∈ g.ids.filter (reached g start).contains, g.AgreesBelow g' id :=
    fun id hid => hreached id (List.contains_iff_mem.mp (List.mem_filter.mp hid).2)
  rw [compile_eq, compile_eq, h.reached_eq, compileNodes_eq_of_agrees hregistry hreached]
  refine bind_congr_ok fun compiled _ => ?_
  unfold finish place
  rw [h.reached_eq, hids, Graph.inPlaceCycle_congr hstarts h.size]
  simp only [h.location]

end Compiler

end TaggedSchema
