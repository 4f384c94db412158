import TaggedSchema.Proofs.FailFast
import TaggedSchema.Proofs.Selection

/-!
# Dispatch agrees with trying every branch

A schema with discriminators can be compiled without honouring them: `oneOf` then tries all its
branches. This file fixes that the second compilation succeeds where the first does, with every
dispatch replaced by the `oneOf` it stands for (`Compiler.compile_exhaustive`), and that the two
validators give the same verdict on every instance (`Compiler.dispatch_agrees`), provided that each
discriminated node declares type object and nothing else, and that no integer is in play that is no
float (`Graph.Comparable`, `Json.IsExact`).

The verdicts agree node by node, whatever the nodes are used for: by induction on the evaluations
inside each other, a node finds something in one program when it does in the other
(`Program.agreesWithin`), and neither `not` nor `anyOf` nor the limit of depth can tell
more.
-/

namespace TaggedSchema

/-! ## 1. Programs without dispatch -/

/-- A rule with all branches tried. -/
def Rule.exhaustive : Rule → Rule
  | .dispatch _ branches _ => .oneOf branches
  | rule => rule

/-- A keyword with all branches tried. -/
def CompiledKeyword.exhaustive (keyword : CompiledKeyword) : CompiledKeyword :=
  { keyword with rule := keyword.rule.exhaustive }

/-- A node with all branches tried. -/
def CompiledNode.exhaustive (node : CompiledNode) : CompiledNode :=
  { node with keywords := node.keywords.map CompiledKeyword.exhaustive }

/-- A program with all branches tried. -/
def Program.exhaustive (p : Program) : Program :=
  { p with nodes := p.nodes.map CompiledNode.exhaustive }

theorem Rule.exhaustive_eq_self {rule : Rule}
    (h : ∀ d branches typeChecked, rule ≠ .dispatch d branches typeChecked) :
    rule.exhaustive = rule := by
  cases rule with
  | dispatch d branches typeChecked => exact absurd rfl (h d branches typeChecked)
  | _ => rfl

namespace Compiler

variable {o : Options} {g : Graph} {root id : NodeId} {n : Node} {d : Option Discriminator}

theorem coreRule_exhaustive {value : Json} {core : CoreKeyword} {rule : Option Rule}
    (h : CoreRule n d value core rule) :
    CoreRule n none value core (rule.map Rule.exhaustive) := by
  cases h with
  | type h => exact .type h
  | const => exact .const
  | enum h => exact .enum h
  | required h => exact .required h
  | properties h => exact .properties h
  | ref h => exact .ref h
  | allOf h => exact .allOf h
  | anyOf h => exact .anyOf h
  | oneOf h _ => exact .oneOf h rfl
  | dispatch h _ => exact .oneOf h rfl
  | discriminator => exact .discriminator

theorem keywordRule_exhaustive [Pattern.Library] {name : String} {value : Json} {rule : Option Rule}
    (h : (builtin { o with discriminator := true }).keywordRule g id n d name value = .ok rule) :
    (builtin { o with discriminator := false }).keywordRule g id n none name value
      = .ok (rule.map Rule.exhaustive) := by
  rcases keywordRule_cases h with ⟨core, hname, hcore⟩ | ⟨hname, rfl⟩ | ⟨_, act, hname, _, _, rfl⟩
  · unfold keywordRule
    rw [hname]
    exact coreRule_eq_ok_iff.mpr (coreRule_exhaustive hcore)
  -- Outside the core the discriminator plays no part, and no rule is a dispatch.
  · unfold keywordRule at *
    rw [hname] at *
    exact h
  · have hsame : (act.map Rule.assertion).map Rule.exhaustive = act.map Rule.assertion := by
      cases act <;> rfl
    unfold keywordRule at *
    rw [hname] at *
    rw [hsame]
    exact h

theorem keywordRules_exhaustive [Pattern.Library] {keywords : List (String × Json)}
    {ks : List CompiledKeyword}
    (h : (builtin { o with discriminator := true }).keywordRules g id n d keywords = .ok ks) :
    (builtin { o with discriminator := false }).keywordRules g id n none keywords
      = .ok (ks.map CompiledKeyword.exhaustive) := by
  induction keywords generalizing ks with
  | nil =>
    cases h
    rfl
  | cons entry rest ih =>
    obtain ⟨rule, rules, hrule, hrules, rfl⟩ := keywordRules_cons.mp h
    refine keywordRules_cons.mpr ⟨_, _, keywordRule_exhaustive hrule, ih hrules, ?_⟩
    rw [List.map_append]
    cases rule <;> rfl

theorem compileNode_exhaustive [Pattern.Library] {node : CompiledNode}
    (h : (builtin { o with discriminator := true }).compileNode g id n = .ok node) :
    (builtin { o with discriminator := false }).compileNode g id n = .ok node.exhaustive := by
  unfold compileNode at *
  split at h
  · cases h
    rfl
  · cases h
    rfl
  · obtain ⟨d, _, h⟩ := bind_eq_ok.mp h
    obtain ⟨rules, hrules, rfl⟩ := bind_pure_eq_ok.mp h
    exact bind_eq_ok.mpr ⟨none, rfl, bind_pure_eq_ok.mpr ⟨_, keywordRules_exhaustive hrules, rfl⟩⟩

theorem compileNodes_exhaustive [Pattern.Library] {ids : List NodeId}
    {l : List (NodeId × CompiledNode)}
    (h : (builtin { o with discriminator := true }).compileNodes g ids = .ok l) :
    (builtin { o with discriminator := false }).compileNodes g ids
      = .ok (l.map fun entry => (entry.1, entry.2.exhaustive)) := by
  induction ids generalizing l with
  | nil =>
    cases h
    rfl
  | cons first rest ih =>
    cases hfirst : g.node? first with
    | none =>
      rw [compileNodes_cons_none hfirst] at h ⊢
      exact ih h
    | some m =>
      obtain ⟨node, nodes, hnode, hnodes, rfl⟩ := (compileNodes_cons_some hfirst).mp h
      exact (compileNodes_cons_some hfirst).mpr
        ⟨_, _, compileNode_exhaustive hnode, ih hnodes, rfl⟩

theorem place_exhaustive (g : Graph) (l : List (NodeId × CompiledNode)) :
    place g (l.map fun entry => (entry.1, entry.2.exhaustive))
      = (place g l).map CompiledNode.exhaustive := by
  have hlookup (id : NodeId) :
      (l.map fun entry => (entry.1, entry.2.exhaustive)).lookup id
        = (l.lookup id).map CompiledNode.exhaustive := by
    induction l with
    | nil => rfl
    | cons entry rest ih =>
      rw [List.map_cons, List.lookup_cons, List.lookup_cons, ih]
      cases id == entry.1 <;> rfl
  unfold place
  rw [List.map_toArray, List.map_map]
  congr 2
  funext id
  dsimp only [Function.comp_apply]
  rw [hlookup]
  cases l.lookup id <;> rfl

/-- **A schema that compiles with discriminators compiles without**, to the program that tries every
    branch. -/
theorem compile_exhaustive [Pattern.Library] {p : Program}
    (h : (builtin { o with discriminator := true }).compile g root = .ok p) :
    (builtin { o with discriminator := false }).compile g root = .ok p.exhaustive := by
  obtain ⟨compiled, hcompiled, hcycle, rfl⟩ := compile_eq_ok_iff.mp h
  refine compile_eq_ok_iff.mpr ⟨_, compileNodes_exhaustive hcompiled, hcycle, ?_⟩
  unfold Program.exhaustive
  rw [place_exhaustive]
  rfl

/-! ## 2. Where a dispatch comes from -/

/-- The discriminator of a node comes from its `discriminator` keyword. -/
theorem discriminatorOf_eq_some {c : Compiler} {found : Discriminator} (hn : g.node? id = some n)
    (h : c.discriminatorOf g id n = .ok (some found)) :
    n.hasKeyword "discriminator" = true ∧ ∃ property,
      Discriminator.propertyOf n = .ok property ∧
      Discriminator.ofBranches g id property = .ok found := by
  unfold discriminatorOf at h
  split at h
  next hhonoured =>
    obtain ⟨found', hfound, he⟩ := bind_pure_eq_ok.mp h
    cases he
    exact ⟨(Bool.and_eq_true_iff.mp hhonoured).2, (Discriminator.ofNode_eq_ok_iff hn).mp hfound⟩
  next => cases h

/-- **A dispatch of a compiled node** has been analysed, and has the branches of the node. -/
theorem analysed_of_dispatch {c : Compiler} {node : CompiledNode} (hn : g.node? id = some n)
    (h : c.compileNode g id n = .ok node) {keyword : CompiledKeyword}
    (hk : keyword ∈ node.keywords) {found : Discriminator} {branches : List NodeId}
    {typeChecked : Bool} (hrule : keyword.rule = .dispatch found branches typeChecked) :
    n.hasKeyword "discriminator" = true ∧ Discriminator.branchesOf g id = some branches ∧
      ∃ property, Discriminator.propertyOf n = .ok property ∧
        Discriminator.ofBranches g id property = .ok found := by
  rcases keywordRule_of_compileNode h hk with hnever | ⟨d, _, hd, _, hcompiled⟩
  · rw [hrule] at hnever
    cases hnever
  · rw [hrule] at hcompiled
    rcases keywordRule_cases hcompiled with ⟨_, _, hcore⟩ | ⟨_, hnone⟩ | ⟨_, act, _, _, _, hact⟩
    · cases hcore with
      | dispatch hbranches hfound =>
        subst hfound
        obtain ⟨hkeyword, hproperty⟩ := discriminatorOf_eq_some hn hd
        refine ⟨hkeyword, ?_, hproperty⟩
        unfold Discriminator.branchesOf
        rw [hn]
        exact hbranches
    · cases hnone
    · cases act <;> cases hact

end Compiler

/-! ## 3. Graphs that can be compared -/

/-- The node is compiled and has a discriminator. -/
def Graph.Discriminated (g : Graph) (id : NodeId) (n : Node) : Prop :=
  id ∈ Compiler.reached g g.root ∧ g.node? id = some n ∧ n.hasKeyword "discriminator" = true

/-- **Discriminated nodes are objects and their tags are floats**: `type` is object and nothing
    else, and no declared tag is an integer beyond those. -/
structure Graph.Comparable (g : Graph) : Prop where
  typed : ∀ id n, g.Discriminated id n → n.declaredTypes = some [.object]
  exact : ∀ id n property a, g.Discriminated id n → Discriminator.propertyOf n = .ok property →
    Discriminator.Declared g id property (.number a) → a.Exact

/-- A test of it that looks at every schema of the graph. -/
def Graph.isComparable (g : Graph) : Bool :=
  g.nodes.toList.all fun n =>
    (!n.hasKeyword "discriminator" || n.declaredTypes == some [.object]) &&
      match Discriminator.allowedValues n with
      | .ok (some values) => values.all fun value => value.number?.all fun a => decide a.Exact
      | _ => true

theorem Graph.comparable_of_isComparable {g : Graph} (h : g.isComparable = true) :
    g.Comparable := by
  have hnode {id : NodeId} {n : Node} (hn : g.node? id = some n) := by
    have hall := List.all_eq_true.mp h n (Array.mem_def.mp (Array.mem_of_getElem? hn))
    exact Bool.and_eq_true_iff.mp hall
  refine ⟨fun id n hn => ?_, fun id n property a _ _ hdeclared => ?_⟩
  · obtain ⟨_, hn, hkeyword⟩ := hn
    have htyped := (hnode hn).1
    rw [hkeyword] at htyped
    exact eq_of_beq htyped
  · obtain ⟨_, _, _, tagNode, values, _, _, _, ⟨_, target, _, _, hn⟩, hallows, hvalue⟩ := hdeclared
    have hexact := (hnode hn).2
    rw [Discriminator.allowedValues_of_allows hallows] at hexact
    exact of_decide_eq_true (List.all_eq_true.mp hexact _ hvalue)

/-! ## 4. Nodes -/

namespace Discriminator

variable {c : Compiler} {store : Store} {g : Graph} {owner : NodeId} {p : Program}
  {property : String} {branches : List NodeId} {tags : List (List Tag)}
  {members : List (String × Json)} {find : Finder} {fuel : Nat} {f : Frame} {keyword : String}

variable [Uri.Library]

/-- Where the dispatch finds nothing, neither does `oneOf`: the selected branch holds, and no other
    can, since it would have been selected. -/
theorem oneOf_of_dispatch (typeChecked : Bool) (hg : g.Resolved store) (hroot : g.root < g.size)
    (hp : c.compile g g.root = .ok p) (howner : owner ∈ Compiler.reached g g.root)
    (hall : DeclaresAll g owner property branches tags)
    (hexact : ∀ a, Declared g owner property (.number a) → a.Exact)
    (hvalue : Json.IsExact (.object members))
    (hsame : ∀ branch f', SameVerdict (find branch (.object members) f')
      (p.errors fuel branch (.object members) f'))
    (h : Rule.dispatchErrors find f keyword ⟨property, ⟨rowsOf 0 tags⟩, branches.length⟩ branches
      typeChecked (.object members) = []) :
    Rule.oneOfErrors f keyword
      (Rule.branchErrors (p.errors fuel) f keyword (.object members) 0 branches) = [] := by
  obtain ⟨raw, tag, i, hraw, htag, hi, hnone⟩ := Rule.dispatchErrors_eq_nil_iff.mp h
  obtain ⟨declared, hdeclared, _⟩ := (get?_rowsOf hall.2.2).mp hi
  have hlt : i < branches.length :=
    hall.2.1.length_eq.symm ▸ (List.getElem?_eq_some_iff.mp hdeclared).1
  have hselected := List.getElem?_eq_getElem hlt
  refine Rule.oneOfErrors_eq_nil_iff.mpr ⟨i, branches[i], hselected,
    (sameVerdict_iff.mp (hsame _ _)).mp (hnone _ hselected), fun j other hother hnone' => ?_⟩
  have hreached := mem_reached_of_branch hg hroot howner hall.1 (List.mem_of_getElem? hother)
  obtain ⟨tag', htag', hj⟩ := selected_of_passes hg hroot hp hall hexact hother hreached hraw
    (hvalue.part (.member (mem_of_lookup hraw))) ⟨fuel, _, hnone'⟩
  rw [htag] at htag'
  cases htag'
  exact Option.some.inj (hj.symm.trans hi)

/-- Where `oneOf` finds nothing, neither does the dispatch: the branch that holds is the one that is
    selected, and its property is there, since the branch or the owner requires it. -/
theorem dispatch_of_oneOf (typeChecked : Bool) (hg : g.Resolved store) (hroot : g.root < g.size)
    (hp : c.compile g g.root = .ok p) (howner : owner ∈ Compiler.reached g g.root)
    (hpass : p.Passes owner (.object members))
    (hall : DeclaresAll g owner property branches tags)
    (hexact : ∀ a, Declared g owner property (.number a) → a.Exact)
    (hvalue : Json.IsExact (.object members))
    (hsame : ∀ branch f', SameVerdict (find branch (.object members) f')
      (p.errors fuel branch (.object members) f'))
    (h : Rule.oneOfErrors f keyword
      (Rule.branchErrors (p.errors fuel) f keyword (.object members) 0 branches) = []) :
    Rule.dispatchErrors find f keyword ⟨property, ⟨rowsOf 0 tags⟩, branches.length⟩ branches
      typeChecked (.object members) = [] := by
  obtain ⟨i, branch, hbranch, hnone, _⟩ := Rule.oneOfErrors_eq_nil_iff.mp h
  have hbranchPass : p.Passes branch (.object members) := ⟨fuel, _, hnone⟩
  have hreached := mem_reached_of_branch hg hroot howner hall.1 (List.mem_of_getElem? hbranch)
  obtain ⟨hlt, rfl⟩ := List.getElem?_eq_some_iff.mp hbranch
  have htagged := (List.forall₂_iff_get.mp hall.2.1).2 i hlt (hall.2.1.length_eq ▸ hlt)
  obtain ⟨raw, hraw⟩ := Option.isSome_iff_exists.mp
    (isSome_of_tagged hg hroot hp howner hpass hreached hbranchPass htagged)
  obtain ⟨tag, htag, hi⟩ := selected_of_passes hg hroot hp hall hexact hbranch hreached hraw
    (hvalue.part (.member (mem_of_lookup hraw))) hbranchPass
  refine Rule.dispatchErrors_eq_nil_iff.mpr ⟨raw, tag, i, hraw, htag, hi, fun other hother => ?_⟩
  rw [hbranch] at hother
  cases hother
  exact (sameVerdict_iff.mp (hsame _ _)).mpr hnone

end Discriminator

namespace Program

variable {o : Options} {store : Store} {g : Graph} {p : Program} {id : NodeId} {value : Json}
  {f : Frame}

/-- What a node has against a value is what its rules have. -/
theorem errors_eq_nil_iff {fuel : Nat} {node : CompiledNode} (hnode : p.nodes[id]? = some node)
    (hdepth : ¬ p.maxDepth < f.depth) :
    p.errors (fuel + 1) id value f = [] ↔ ∀ keyword ∈ node.keywords,
      keyword.rule.errors (p.errors fuel) keyword.name value f = [] := by
  simp only [errors, hnode]
  rw [if_neg hdepth]
  exact List.flatMap_eq_nil_iff

/-- A dispatch of a program has an owner in the graph, whose branches declare the tags. -/
theorem owner_of_dispatch [Uri.Library] [Pattern.Library] (hg : g.Resolved store)
    (hp : (Compiler.builtin o).compile g g.root = .ok p) {node : CompiledNode}
    (hnode : p.nodes[id]? = some node) {keyword : CompiledKeyword}
    (hk : keyword ∈ node.keywords) {d : Discriminator} {branches : List NodeId}
    {typeChecked : Bool} (hrule : keyword.rule = .dispatch d branches typeChecked) :
    ∃ n property tags, g.Discriminated id n ∧ Discriminator.propertyOf n = .ok property ∧
      Discriminator.DeclaresAll g id property branches tags ∧
      d = ⟨property, ⟨Discriminator.rowsOf 0 tags⟩, branches.length⟩ := by
  obtain ⟨hid, n, hn, hcompiled⟩ := Compiler.compileNode_of_keyword hp hnode hk
  obtain ⟨hkeyword, hbranches, property, hproperty, hanalysed⟩ :=
    Compiler.analysed_of_dispatch hn hcompiled hk hrule
  obtain ⟨branches', tags, hall, hd⟩ := Discriminator.declaresAll_of_ofBranches hg hanalysed
  have hsame := hall.1
  rw [hbranches] at hsame
  cases hsame
  exact ⟨n, property, tags, ⟨hid, hn, hkeyword⟩, hproperty, hall, hd⟩

/-- Within a number of evaluations inside each other, both programs give one verdict at every node,
    on every value whose numbers are floats. -/
def AgreesWithin (p : Program) (fuel : Nat) : Prop :=
  ∀ id value f, value.IsExact →
    SameVerdict (p.errors fuel id value f) (p.exhaustive.errors fuel id value f)

/-- A rule that is no dispatch is the same in both programs, and finds nothing in both or in
    neither. -/
theorem rule_eq_nil_iff (hp : p.IsBuiltin) {fuel : Nat} (h : p.AgreesWithin fuel)
    {node : CompiledNode} (hnode : p.nodes[id]? = some node) {keyword : CompiledKeyword}
    (hk : keyword ∈ node.keywords) (hvalue : value.IsExact)
    (hnot : ¬ ∃ d branches typeChecked, keyword.rule = .dispatch d branches typeChecked) :
    keyword.rule.errors (p.errors fuel) keyword.name value f = [] ↔
      keyword.rule.exhaustive.errors (p.exhaustive.errors fuel) keyword.name value f = [] := by
  rw [Rule.exhaustive_eq_self fun d branches typeChecked he => hnot ⟨d, branches, typeChecked, he⟩]
  refine sameVerdict_iff.mp (Rule.errors_rel agreement_sameVerdict (fun schema part f' hpart => ?_)
    (Rule.within_evaluates (hp id node hnode keyword hk) keyword.name value f))
  cases hpart with
  | nested _ => exact h schema value f' hvalue
  | descended hpart _ => exact h schema part f' (hvalue.part hpart)

variable [Uri.Library] [Pattern.Library]

/-- A node finds nothing in one program when it finds nothing in the other. All its rules count on
    both sides: on a value that a node with a discriminator passes, its type has seen to it that the
    value is an object, and what it requires is there. -/
theorem node_eq_nil_iff (hg : g.Resolved store) (hroot : g.root < g.size)
    (hcomparable : g.Comparable)
    (hp : (Compiler.builtin { o with discriminator := true }).compile g g.root = .ok p) {fuel : Nat}
    (h : p.AgreesWithin fuel) {node : CompiledNode} (hnode : p.nodes[id]? = some node)
    (hdepth : ¬ p.maxDepth < f.depth) (hvalue : value.IsExact) :
    p.errors (fuel + 1) id value f = [] ↔ p.exhaustive.errors (fuel + 1) id value f = [] := by
  have hbuiltin := Compiler.isBuiltin_of_compile hp
  have hq := Compiler.compile_exhaustive hp
  have hnode' : p.exhaustive.nodes[id]? = some node.exhaustive := by
    unfold exhaustive
    rw [Array.getElem?_map, hnode]
    rfl
  have hrules : p.exhaustive.errors (fuel + 1) id value f = [] ↔ ∀ keyword ∈ node.keywords,
      keyword.rule.exhaustive.errors (p.exhaustive.errors fuel) keyword.name value f = [] := by
    rw [errors_eq_nil_iff hnode' hdepth]
    exact List.forall_mem_map
  constructor
  · intro hnone
    have hpass : p.Passes id value := ⟨fuel + 1, f, hnone⟩
    refine hrules.mpr fun keyword hk => ?_
    have hfound := (errors_eq_nil_iff hnode hdepth).mp hnone keyword hk
    by_cases hdispatch : ∃ d branches typeChecked, keyword.rule = .dispatch d branches typeChecked
    · obtain ⟨d, branches, typeChecked, hrule⟩ := hdispatch
      obtain ⟨n, property, tags, howner, hproperty, hall, rfl⟩ :=
        owner_of_dispatch hg hp hnode hk hrule
      obtain ⟨members, rfl⟩ := Compiler.object_of_passes hg hp howner.1 howner.2.1 hpass
        (hcomparable.typed id n howner)
      rw [hrule] at hfound ⊢
      exact Discriminator.oneOf_of_dispatch typeChecked hg hroot hq howner.1 hall
        (fun a => hcomparable.exact id n property a howner hproperty) hvalue
        (fun branch f' => h branch _ f' hvalue) hfound
    · exact (rule_eq_nil_iff hbuiltin h hnode hk hvalue hdispatch).mp hfound
  · intro hnone
    have hpass : p.exhaustive.Passes id value := ⟨fuel + 1, f, hnone⟩
    refine (errors_eq_nil_iff hnode hdepth).mpr fun keyword hk => ?_
    have hfound := hrules.mp hnone keyword hk
    by_cases hdispatch : ∃ d branches typeChecked, keyword.rule = .dispatch d branches typeChecked
    · obtain ⟨d, branches, typeChecked, hrule⟩ := hdispatch
      obtain ⟨n, property, tags, howner, hproperty, hall, rfl⟩ :=
        owner_of_dispatch hg hp hnode hk hrule
      obtain ⟨members, rfl⟩ := Compiler.object_of_passes hg hq howner.1 howner.2.1 hpass
        (hcomparable.typed id n howner)
      rw [hrule] at hfound ⊢
      exact Discriminator.dispatch_of_oneOf typeChecked hg hroot hq howner.1 hpass hall
        (fun a => hcomparable.exact id n property a howner hproperty) hvalue
        (fun branch f' => h branch _ f' hvalue) hfound
    · exact (rule_eq_nil_iff hbuiltin h hnode hk hvalue hdispatch).mpr hfound

/-- **Both programs give one verdict** however many evaluations there are inside each other. -/
theorem agreesWithin (hg : g.Resolved store) (hroot : g.root < g.size)
    (hcomparable : g.Comparable)
    (hp : (Compiler.builtin { o with discriminator := true }).compile g g.root = .ok p)
    (fuel : Nat) : p.AgreesWithin fuel := by
  induction fuel with
  | zero => exact fun _ _ _ _ => rfl
  | succ fuel ih =>
    intro id value f hvalue
    by_cases hdepth : p.maxDepth < f.depth
    · have hdepth' : p.exhaustive.maxDepth < f.depth := hdepth
      simp only [errors]
      rw [if_pos hdepth, if_pos hdepth']
      rfl
    · cases hnode : p.nodes[id]? with
      | none =>
        have hnode' : p.exhaustive.nodes[id]? = none := by
          unfold exhaustive
          rw [Array.getElem?_map, hnode]
          rfl
        simp only [errors, hnode, hnode']
        rfl
      | some node =>
        exact sameVerdict_iff.mpr (node_eq_nil_iff hg hroot hcomparable hp ih hnode hdepth hvalue)

end Program

/-! ## 5. Validators -/

/-- **Dispatch agrees with trying every branch.** A schema that compiles with discriminators
    honoured compiles without. If then each discriminated node is declared to be an object and
    nothing else, and no integer beyond `2 ^ 53` is a declared tag or stands in the instance, the
    two validators agree on the instance. -/
theorem Compiler.dispatch_agrees [Uri.Library] [Pattern.Library] (o : Options) {store : Store}
    {root : String} {v : Validator}
    (hv : (builtin { o with discriminator := true }).compileStore store root = .ok v) :
    ∃ w, (builtin { o with discriminator := false }).compileStore store root = .ok w ∧
      ∀ g, Graph.resolve store root = .ok g → g.Comparable → ∀ value : Json, value.IsExact →
        w.isValid value = v.isValid value ∧
        (w.validate value).valid = (v.validate value).valid := by
  unfold compileStore validatorOf at *
  cases hresolve : Graph.resolve store root with
  | error e =>
    rw [hresolve] at hv
    cases hv
  | ok g =>
    rw [hresolve] at hv
    obtain ⟨p, hp, rfl⟩ := bind_pure_eq_ok.mp hv
    refine ⟨⟨p.exhaustive⟩, bind_pure_eq_ok.mpr ⟨_, compile_exhaustive hp, rfl⟩, ?_⟩
    intro g' hg' hcomparable value hvalue
    cases hg'
    obtain ⟨hg, _, _, hat⟩ := Graph.resolved_of_resolve hresolve
    have hagree := Program.agreesWithin hg hat.lt_size hcomparable hp (p.budget value) p.root value
      .root hvalue
    have hbudget : p.exhaustive.budget value = p.budget value := by
      unfold Program.budget Program.exhaustive
      rw [Array.size_map]
    have hvalid : Validator.isValid ⟨p.exhaustive⟩ value = Validator.isValid ⟨p⟩ value := by
      unfold Validator.isValid
      rw [Program.report_eq_pushAll, Program.report_eq_pushAll, Report.isEmpty_empty_pushAll,
        Report.isEmpty_empty_pushAll, hbudget]
      exact hagree.symm
    refine ⟨hvalid, ?_⟩
    rw [← Validator.isValid_eq_valid, ← Validator.isValid_eq_valid, hvalid]

/-- Animals that are told apart by their kind, some of which may not be the friend of a dog. -/
def animals : Json :=
  .object
    [("definitions", .object
      [("animal", .object
        [("discriminator", .object [("propertyName", .string "kind")]),
          ("oneOf", .array
            [.object [("$ref", .string "#/definitions/cat")],
              .object
                [("properties", .object
                  [("friend", .object
                      [("not", .object [("$ref", .string "#/definitions/animal")])]),
                    ("kind", .object [("enum", .array [.string "dog", .number (.ofNat 1)])])]),
                  ("required", .array [.string "kind"])]]),
          ("type", .string "object")]),
        ("cat", .object
          [("properties", .object [("kind", .object [("const", .string "cat")])]),
            ("required", .array [.string "kind"])])]),
      ("items", .object [("$ref", .string "#/definitions/animal")])]

theorem Compiler.dispatch_agrees_animals :
    ∃ v w,
      (builtin { Options.default with discriminator := true }).compileDocument animals = .ok v ∧
      (builtin { Options.default with discriminator := false }).compileDocument animals = .ok w ∧
      ∀ value : Json, value.IsExact → w.isValid value = v.isValid value := by
  have hall : (match Graph.ofDocument animals with
      | .ok g => g.isComparable &&
          ((builtin { Options.default with discriminator := true }).compile g g.root).isOk
      | .error _ => false) = true := by decide +kernel
  cases hg : Graph.ofDocument animals with
  | error e =>
    rw [hg] at hall
    cases hall
  | ok g =>
    rw [hg] at hall
    obtain ⟨hcomparable, hcompiles⟩ := Bool.and_eq_true_iff.mp hall
    cases hp : (builtin { Options.default with discriminator := true }).compile g g.root with
    | error e =>
      rw [hp] at hcompiles
      cases hcompiles
    | ok p =>
      have hv : (builtin { Options.default with discriminator := true }).compileDocument animals
          = .ok ⟨p⟩ := by
        unfold compileDocument validatorOf
        rw [hg]
        exact bind_pure_eq_ok.mpr ⟨p, hp, rfl⟩
      obtain ⟨w, hw, hagree⟩ := dispatch_agrees .default hv
      exact ⟨_, w, hv, hw, fun value hvalue =>
        (hagree g hg (Graph.comparable_of_isComparable hcomparable) value hvalue).1⟩

end TaggedSchema
