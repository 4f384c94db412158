import TaggedSchema.Proofs.Analysis
import TaggedSchema.Proofs.Passing
import TaggedSchema.Proofs.Subschemas

/-!
# What a dispatch records

An instance selects a branch of a discriminator, or none (`Discriminator.selected?`). This file
fixes what the rule of `oneOf` records in either case (`Compiler.dispatch_outcome`):

* where a branch is selected, what that branch records, one level deeper and at its own place in the
  schema, whatever stands anywhere else in the program;
* where none is selected, one error of the discriminator that says why (`Discriminator.Refuses`),
  whatever stands in the branches; only where the instance is no object, and the node declares
  objects and nothing else, is that left to the rule of `type`.

So an instance that selects nothing is never valid.
-/

namespace TaggedSchema

/-! ## 1. What an instance selects -/

namespace Discriminator

/-- The branch that an instance selects: the one of its tag, where it is an object with a tag. -/
def selected? (d : Discriminator) : Json → Option Nat
  | .object members => do d.branchFor? (← Tag.ofJson? (← members.lookup d.property))
  | _ => none

/-- **Why an instance selects nothing**, and the error that says so in a frame. -/
inductive Refuses (d : Discriminator) (f : Frame) : Json → ValidationError → Prop where
  | notObject {value : Json} (h : value.members? = none) :
      Refuses d f value (f.error "discriminator" "must be object")
  | absent {members : List (String × Json)} (h : members.lookup d.property = none) :
      Refuses d f (.object members)
        (f.error "discriminator" ("tag \"" ++ d.property ++ "\" must be present"))
  | noTag {members : List (String × Json)} {raw : Json} (h : members.lookup d.property = some raw)
      (htag : Tag.ofJson? raw = none) :
      Refuses d f (.object members)
        ({ f with instancePath := f.instancePath.join d.property }.error "discriminator"
          ("tag \"" ++ d.property ++ "\" must be string, number or boolean"))
  | unknown {members : List (String × Json)} {raw : Json} {tag : Tag}
      (h : members.lookup d.property = some raw) (htag : Tag.ofJson? raw = some tag)
      (hbranch : d.branchFor? tag = none) :
      Refuses d f (.object members)
        ({ f with instancePath := f.instancePath.join d.property }.error "discriminator"
          ("value of tag \"" ++ d.property ++ "\" must be in oneOf"))

variable {d : Discriminator} {f : Frame} {value : Json} {e : ValidationError}

/-- Every such error is one of the discriminator keyword, at its place in the schema. -/
theorem Refuses.at_discriminator (h : d.Refuses f value e) :
    e.keyword = "discriminator" ∧ e.schemaLocation = f.schemaPath.join "discriminator" := by
  cases h <;> exact ⟨rfl, rfl⟩

theorem selected?_eq_some_iff {i : Nat} :
    d.selected? value = some i ↔ ∃ members raw tag, value = .object members ∧
      members.lookup d.property = some raw ∧ Tag.ofJson? raw = some tag ∧
      d.branchFor? tag = some i := by
  cases value with
  | object members => simp [selected?, Option.bind_eq_some_iff]
  | _ => simp [selected?]

/-- Where a branch is selected, a dispatch finds what the branch has against the instance. -/
theorem dispatchErrors_of_selected {i : Nat} (h : d.selected? value = some i)
    {branches : List NodeId} {branch : NodeId} (hbranch : branches[i]? = some branch)
    (find : Finder) (keyword : String) (typeChecked : Bool) :
    Rule.dispatchErrors find f keyword d branches typeChecked value
      = find branch value (f.nested [keyword, Nat.repr i]) := by
  obtain ⟨members, raw, tag, rfl, hraw, htag, hi⟩ := selected?_eq_some_iff.mp h
  simp only [Rule.dispatchErrors, hraw, htag, hi, hbranch]

/-- Where none is selected, a dispatch finds the one error that says why. -/
theorem dispatchErrors_of_refused (h : d.selected? value = none) {typeChecked : Bool}
    (hreported : ¬ (value.members? = none ∧ typeChecked = true)) (f : Frame) (keyword : String)
    (branches : List NodeId) :
    ∃ e, d.Refuses f value e ∧
      ∀ find, Rule.dispatchErrors find f keyword d branches typeChecked value = [e] := by
  cases value with
  | object members =>
    cases hraw : members.lookup d.property with
    | none => exact ⟨_, .absent hraw, fun _ => by simp only [Rule.dispatchErrors, hraw]⟩
    | some raw =>
      cases htag : Tag.ofJson? raw with
      | none => exact ⟨_, .noTag hraw htag, fun _ => by simp only [Rule.dispatchErrors, hraw, htag]⟩
      | some tag =>
        cases hbranch : d.branchFor? tag with
        | none =>
          exact ⟨_, .unknown hraw htag hbranch,
            fun _ => by simp only [Rule.dispatchErrors, hraw, htag, hbranch]⟩
        | some i =>
          rw [selected?_eq_some_iff.mpr ⟨members, raw, tag, rfl, hraw, htag, hbranch⟩] at h
          cases h
  | _ =>
    cases typeChecked with
    | true => exact absurd ⟨rfl, rfl⟩ hreported
    | false => exact ⟨_, .notObject rfl, fun _ => rfl⟩

/-- Where the types of the node already exclude the instance, it finds nothing. -/
theorem dispatchErrors_of_excluded (h : value.members? = none) (find : Finder) (f : Frame)
    (keyword : String) (branches : List NodeId) :
    Rule.dispatchErrors find f keyword d branches true value = [] := by
  cases value with
  | object members => cases h
  | _ => rfl

end Discriminator

/-! ## 2. What rules and nodes record -/

/-- On every collecting report the rule adds just these errors. -/
def Rule.Records (rule : Rule) (p : Program) (fuel : Nat) (keyword : String) (value : Json)
    (f : Frame) (errors : List ValidationError) : Prop :=
  ∀ out, out.failFast = false →
    rule.run (fun _ => (pure () : Id Unit)) (p.evaluate fuel) keyword value f out
      = ⟨false, out.errors ++ errors⟩

/-- What the evaluation of a node adds to an empty collecting report. -/
def Program.recorded (p : Program) (fuel : Nat) (id : NodeId) (value : Json) (f : Frame) :
    List ValidationError :=
  (p.evaluate fuel id value f (.empty false)).errors

theorem Rule.records_errors (rule : Rule) (p : Program) (fuel : Nat) (keyword : String)
    (value : Json) (f : Frame) :
    rule.Records p fuel keyword value f (rule.errors (p.errors fuel) keyword value f) := by
  intro out hout
  rw [Rule.run_eq_pushAll (p.evaluate_eq_pushAll fuel)]
  exact Report.pushAll_collecting hout _

theorem Program.recorded_eq_errors (p : Program) (fuel : Nat) (id : NodeId) (value : Json)
    (f : Frame) : p.recorded fuel id value f = p.errors fuel id value f := by
  unfold recorded
  rw [p.evaluate_eq_pushAll, Report.pushAll_collecting rfl]
  exact List.nil_append _

/-- What does not pass leaves no report empty. -/
theorem Program.isEmpty_evaluate_of_not_passes {p : Program} {id : NodeId} {value : Json}
    (h : ¬ p.Passes id value) (fuel : Nat) (f : Frame) (failFast : Bool) :
    (p.evaluate fuel id value f (.empty failFast)).isEmpty = false := by
  rw [p.evaluate_eq_pushAll, Report.isEmpty_empty_pushAll, List.isEmpty_eq_false_iff]
  exact fun hnone => h ⟨fuel, f, hnone⟩

/-- A node with a rule that records something does not pass. -/
theorem Program.not_passes_of_records {p : Program} {id : NodeId} {node : CompiledNode}
    (hnode : p.nodes[id]? = some node) {k : CompiledKeyword} (hk : k ∈ node.keywords)
    {value : Json} (h : ∀ fuel f, ∃ e, k.rule.Records p fuel k.name value f [e]) :
    ¬ p.Passes id value := by
  intro hpass
  obtain ⟨fuel, f, hnone⟩ := hpass.rule hnode hk
  obtain ⟨e, hrecords⟩ := h fuel f
  have hrun := (hrecords (.empty false) rfl).symm.trans
    (k.rule.records_errors p fuel k.name value f (.empty false) rfl)
  rw [hnone] at hrun
  cases hrun

section Dispatches

variable {d : Discriminator} {branches : List NodeId} {typeChecked : Bool} {value : Json}

/-- **A dispatch to a branch records what the branch records**, in every program that agrees below
    the branch. -/
theorem Rule.records_of_selected {i : Nat} (h : d.selected? value = some i) {branch : NodeId}
    (hbranch : branches[i]? = some branch) {p q : Program} (hq : p.AgreesBelow q branch)
    (fuel : Nat) (keyword : String) (f : Frame) :
    (dispatch d branches typeChecked).Records q fuel keyword value f
      (p.recorded fuel branch value (f.nested [keyword, Nat.repr i])) := by
  have hrecords := (dispatch d branches typeChecked).records_errors q fuel keyword value f
  have hfound : (dispatch d branches typeChecked).errors (q.errors fuel) keyword value f
      = q.errors fuel branch value (f.nested [keyword, Nat.repr i]) :=
    Discriminator.dispatchErrors_of_selected h hbranch _ _ _
  rw [hfound, Program.errors_eq_of_agrees hq] at hrecords
  rwa [Program.recorded_eq_errors]

/-- **A dispatch to no branch records why**, in every program. -/
theorem Rule.records_of_refused (h : d.selected? value = none)
    (hreported : ¬ (value.members? = none ∧ typeChecked = true)) (keyword : String) (f : Frame) :
    ∃ e, d.Refuses f value e ∧
      ∀ fuel q, (dispatch d branches typeChecked).Records q fuel keyword value f [e] := by
  obtain ⟨e, hrefuses, hfound⟩ := Discriminator.dispatchErrors_of_refused h hreported f keyword
    branches
  refine ⟨e, hrefuses, fun fuel q => ?_⟩
  rw [← hfound (q.errors fuel)]
  exact records_errors _ q fuel keyword value f

/-- A dispatch that leaves to `type` what is no object records nothing against it. -/
theorem Rule.records_of_excluded (h : value.members? = none) (fuel : Nat) (q : Program)
    (keyword : String) (f : Frame) :
    (dispatch d branches true).Records q fuel keyword value f [] := by
  rw [← Discriminator.dispatchErrors_of_excluded h (q.errors fuel) f keyword branches]
  exact records_errors _ q fuel keyword value f

end Dispatches

/-- The rule of `type` records what is no object where only objects are allowed. -/
theorem Rule.type_records {value : Json} (h : value.members? = none) (fuel : Nat) (q : Program)
    (f : Frame) :
    (type [.object]).Records q fuel "type" value f [f.error "type" "must be object"] := by
  have hfound : (type [.object]).errors (q.errors fuel) "type" value f
      = [f.error "type" "must be object"] := by
    cases value with
    | object members => cases h
    | _ => rfl
  rw [← hfound]
  exact records_errors _ q fuel "type" value f

/-! ## 3. Compiled discriminators -/

/-- **A node whose discriminator is honoured**, as it is compiled: its rules `oneOf` are dispatches
    over its branches, into which the table leads, and what it declares to be is checked. -/
structure CompiledNode.Honours (node : CompiledNode) (g : Graph) (id : NodeId) (n : Node)
    (d : Discriminator) (branches : List NodeId) : Prop where
  analysed : Discriminator.ofNode g id = .ok d
  offered : n.childList? "oneOf" = some branches
  selects : ∀ value i, d.selected? value = some i → ∃ branch, branches[i]? = some branch
  exists_rule : ∃ k ∈ node.keywords, k.name = "oneOf"
  rule : ∀ k ∈ node.keywords, k.name = "oneOf" →
    k.rule = .dispatch d branches (n.declaredTypes == some [.object])
  typed : ∀ types, n.declaredTypes = some types → ⟨"type", .type types⟩ ∈ node.keywords

namespace Compiler

variable {c : Compiler} {store : Store} {g : Graph} {start id : NodeId} {p : Program} {n : Node}
  {d : Discriminator} {branches : List NodeId} {ks : List CompiledKeyword}

/-- With a discriminator the keyword `oneOf` is a dispatch, and no other rule bears the name. -/
theorem oneOf_of_honoured [Uri.Library] (hg : g.Resolved store) (hn : g.node? id = some n)
    (hlist : n.childList? "oneOf" = some branches)
    (h : c.keywordRules g id n (some d) n.keywords = .ok ks) :
    (∃ k ∈ ks, k.name = "oneOf") ∧
      ∀ k ∈ ks, k.name = "oneOf" →
        k.rule = .dispatch d branches (n.declaredTypes == some [.object]) := by
  have hdispatch {value : Json} {rule : Option Rule}
      (hrule : c.keywordRule g id n (some d) "oneOf" value = .ok rule) :
      rule = some (.dispatch d branches (n.declaredTypes == some [.object])) := by
    cases coreRule_of_keywordRule .oneOf hrule with
    | oneOf _ hd => cases hd
    | dispatch hbranches hd =>
      cases hd
      rw [hlist] at hbranches
      cases hbranches
      rfl
  exact only_rule h (hg.hasKeyword_of_children hn (Node.children?_of_childList? hlist))
    fun _ _ => hdispatch

/-- Where types are declared, there is a rule for them. -/
theorem type_of_declared [Uri.Library] (hg : g.Resolved store) (hn : g.node? id = some n)
    {types : List InstanceType} (htypes : n.declaredTypes = some types)
    {found : Option Discriminator} (h : c.keywordRules g id n found n.keywords = .ok ks) :
    ⟨"type", .type types⟩ ∈ ks := by
  obtain ⟨written, hwritten⟩ := hg.exists_type hn htypes
  obtain ⟨rule, hrule, hmem⟩ := keywordRule_of_mem h (mem_of_lookup hwritten)
  cases coreRule_of_keywordRule .type hrule with
  | type h =>
    rw [htypes] at h
    cases h
    exact hmem _ rfl

/-- The table of a discriminator leads into its branches. -/
theorem exists_branch_of_selected {property : String} {tags : List (List Tag)}
    (hall : Discriminator.DeclaresAll g id property branches tags) {value : Json} {i : Nat}
    (h : Discriminator.selected? ⟨property, ⟨Discriminator.rowsOf 0 tags⟩, branches.length⟩ value
      = some i) : ∃ branch, branches[i]? = some branch := by
  obtain ⟨_, _, tag, _, _, _, hi⟩ := Discriminator.selected?_eq_some_iff.mp h
  obtain ⟨declared, hdeclared, _⟩ := (Discriminator.get?_rowsOf hall.2.2).mp hi
  obtain ⟨hlt, _⟩ := List.getElem?_eq_some_iff.mp hdeclared
  exact ⟨_, List.getElem?_eq_getElem (hall.2.1.length_eq ▸ hlt)⟩

/-- **A discriminated node is compiled to honour its discriminator.** -/
theorem honours_of_compile [Uri.Library] (hg : g.Resolved store)
    (hc : c.options.discriminator = true) (hp : c.compile g start = .ok p)
    (hid : id ∈ reached g start) (hn : g.node? id = some n)
    (hkeyword : n.hasKeyword "discriminator" = true) :
    ∃ node d branches, p.nodes[id]? = some node ∧ node.Honours g id n d branches := by
  obtain ⟨node, hcompiled, hnode⟩ := node_of_reached hp hid hn
  obtain ⟨d, hd, hrules⟩ := honoured_of_compileNode hc hkeyword hcompiled
  obtain ⟨property, _, hanalysed⟩ := (Discriminator.ofNode_eq_ok_iff hn).mp hd
  obtain ⟨branches, tags, hall, rfl⟩ := Discriminator.declaresAll_of_ofBranches hg hanalysed
  have hlist : n.childList? "oneOf" = some branches := by
    have hbranches := hall.1
    unfold Discriminator.branchesOf at hbranches
    rwa [hn] at hbranches
  obtain ⟨hexists, hdispatch⟩ := oneOf_of_honoured hg hn hlist hrules
  exact ⟨node, _, branches, hnode, hd, hlist, fun _ _ => exists_branch_of_selected hall, hexists,
    hdispatch, fun _ htypes => type_of_declared hg hn htypes hrules⟩

end Compiler

namespace CompiledNode.Honours

variable {node : CompiledNode} {g : Graph} {id : NodeId} {n : Node} {d : Discriminator}
  {branches : List NodeId} {k : CompiledKeyword} {value : Json}

/-- The dispatch of a node records nothing only where the node is declared to be an object. -/
theorem records_of_excluded (h : node.Honours g id n d branches) (hvalue : value.members? = none)
    (htypes : n.declaredTypes = some [.object]) (hk : k ∈ node.keywords) (hname : k.name = "oneOf")
    (f : Frame) :
    (∀ fuel q, k.rule.Records q fuel "oneOf" value f []) ∧
      ∃ t ∈ node.keywords, t.name = "type" ∧ ∃ e, e.keyword = "type" ∧
        e.schemaLocation = f.schemaPath.join "type" ∧
        ∀ fuel q, t.rule.Records q fuel "type" value f [e] := by
  rw [h.rule k hk hname, htypes, beq_self_eq_true]
  exact ⟨fun fuel q => Rule.records_of_excluded hvalue fuel q "oneOf" f, _, h.typed _ htypes, rfl,
    _, rfl, rfl, fun fuel q => Rule.type_records hvalue fuel q f⟩

/-- Everywhere else the dispatch of a node that selects nothing records why. -/
theorem records_of_refused (h : node.Honours g id n d branches) (hvalue : d.selected? value = none)
    (hreported : ¬ (value.members? = none ∧ n.declaredTypes = some [.object]))
    (hk : k ∈ node.keywords) (hname : k.name = "oneOf") (f : Frame) :
    ∃ e, d.Refuses f value e ∧ ∀ fuel q, k.rule.Records q fuel "oneOf" value f [e] := by
  rw [h.rule k hk hname]
  exact Rule.records_of_refused hvalue (fun hboth => hreported ⟨hboth.1, beq_iff_eq.mp hboth.2⟩)
    "oneOf" f

/-- **What selects nothing does not pass.** -/
theorem not_passes (h : node.Honours g id n d branches) {p : Program}
    (hnode : p.nodes[id]? = some node) (hvalue : d.selected? value = none) :
    ¬ p.Passes id value := by
  obtain ⟨k, hk, hname⟩ := h.exists_rule
  by_cases hexcluded : value.members? = none ∧ n.declaredTypes = some [.object]
  · exact Program.not_passes_of_records hnode (h.typed _ hexcluded.2) fun fuel f =>
      ⟨_, Rule.type_records hexcluded.1 fuel p f⟩
  · refine Program.not_passes_of_records hnode hk fun fuel f => ?_
    obtain ⟨e, _, hrecords⟩ := h.records_of_refused hvalue hexcluded hk hname f
    exact ⟨e, hname ▸ hrecords fuel p⟩

end CompiledNode.Honours

/-! ## 4. The outcome of a dispatch -/

/-- **What a dispatch records.** In a compiled program every rule `oneOf` of a discriminated node
    records what the selected branch records, in whatever program agrees below that branch. Where no
    branch is selected it records one error of the discriminator, in whatever program; or nothing,
    where the instance is no object and the rule of `type` records that. Then the node is never
    valid. With the built-in keywords nothing is below a branch but what the schema leads to. -/
theorem Compiler.dispatch_outcome [Uri.Library] [Pattern.Library] {c : Compiler} {store : Store}
    {root : String} {g : Graph} (hg : Graph.resolve store root = .ok g)
    (hc : c.options.discriminator = true) {start : NodeId}
    {p : Program} (hp : c.compile g start = .ok p) {id : NodeId} (hid : id ∈ reached g start)
    {n : Node} (hn : g.node? id = some n) (hkeyword : n.hasKeyword "discriminator" = true) :
    ∃ node d branches, p.nodes[id]? = some node ∧ Discriminator.ofNode g id = .ok d ∧
      n.childList? "oneOf" = some branches ∧ (∃ k ∈ node.keywords, k.name = "oneOf") ∧
      (∀ k ∈ node.keywords, k.name = "oneOf" → ∀ value f,
        (∀ i, d.selected? value = some i → ∃ branch, branches[i]? = some branch ∧
          ∀ fuel q, p.AgreesBelow q branch → k.rule.Records q fuel "oneOf" value f
            (p.recorded fuel branch value (f.nested ["oneOf", Nat.repr i]))) ∧
        (value.members? = none ∧ n.declaredTypes = some [.object] →
          (∀ fuel q, k.rule.Records q fuel "oneOf" value f []) ∧
            ∃ t ∈ node.keywords, t.name = "type" ∧ ∃ e, e.keyword = "type" ∧
              e.schemaLocation = f.schemaPath.join "type" ∧
              ∀ fuel q, t.rule.Records q fuel "type" value f [e]) ∧
        (d.selected? value = none →
          ¬ (value.members? = none ∧ n.declaredTypes = some [.object]) →
          ∃ e, d.Refuses f value e ∧ e.keyword = "discriminator" ∧
            e.schemaLocation = f.schemaPath.join "discriminator" ∧
            ∀ fuel q, k.rule.Records q fuel "oneOf" value f [e])) ∧
      (∀ value, d.selected? value = none → ∀ fuel f failFast,
        (p.evaluate fuel id value f (.empty failFast)).isEmpty = false) ∧
      (c.registry = .default → ∀ a b, p.Leads a b → b ∈ edges g a) := by
  obtain ⟨hresolved, _⟩ := Graph.resolved_of_resolve hg
  obtain ⟨node, d, branches, hnode, h⟩ := honours_of_compile hresolved hc hp hid hn hkeyword
  refine ⟨node, d, branches, hnode, h.analysed, h.offered, h.exists_rule,
    fun k hk hname value f => ⟨fun i hi => ?_, fun hexcluded => ?_, fun hnone hreported => ?_⟩,
    fun value hnone fuel f failFast => ?_, fun hregistry _ _ => mem_edges_of_leads hregistry hp⟩
  · obtain ⟨branch, hbranch⟩ := h.selects value i hi
    refine ⟨branch, hbranch, fun fuel q hq => ?_⟩
    rw [h.rule k hk hname]
    exact Rule.records_of_selected hi hbranch hq fuel "oneOf" f
  · exact h.records_of_excluded hexcluded.1 hexcluded.2 hk hname f
  · obtain ⟨e, hrefuses, hrecords⟩ := h.records_of_refused hnone hreported hk hname f
    exact ⟨e, hrefuses, hrefuses.at_discriminator.1, hrefuses.at_discriminator.2, hrecords⟩
  · exact Program.isEmpty_evaluate_of_not_passes (h.not_passes hnode hnone) fuel f failFast

/-- One letter, told by its name. -/
def letters : Json :=
  .object
    [("discriminator", .object [("propertyName", .string "k")]),
      ("oneOf", .array
        [.object
          [("properties", .object [("k", .object [("const", .string "a")])]),
            ("required", .array [.string "k"])]])]

theorem Compiler.dispatch_outcome_letters :
    ∃ g p node d, Graph.ofDocument letters = .ok g ∧
      (builtin .default).compile g g.root = .ok p ∧ p.nodes[g.root]? = some node ∧
      Discriminator.ofNode g g.root = .ok d ∧
      d.selected? (.object [("k", .string "a")]) = some 0 ∧
      (∀ k ∈ node.keywords, k.name = "oneOf" → ∃ branch,
        k.rule.Records p 7 "oneOf" (.object [("k", .string "a")]) .root
          (p.recorded 7 branch (.object [("k", .string "a")]) ⟨.root, ⟨["oneOf", "0"]⟩, 1⟩)) ∧
      (p.evaluate 7 g.root (.object []) .root (.empty true)).isEmpty = false := by
  have hall : ((Graph.ofDocument letters).toOption.any fun g =>
      ((builtin .default).compile g g.root).toOption.any fun _ => (g.node? g.root).any fun n =>
        (Discriminator.ofNode g g.root).toOption.any fun d =>
          (reached g g.root).contains g.root && n.hasKeyword "discriminator" &&
            d.selected? (.object [("k", .string "a")]) == some 0) = true := by decide +kernel
  obtain ⟨g, hg, hall⟩ := any_toOption_eq_true.mp hall
  obtain ⟨p, hp, hall⟩ := any_toOption_eq_true.mp hall
  obtain ⟨n, hn, hall⟩ := (Option.any_eq_true _ _).mp hall
  obtain ⟨d, hd, hall⟩ := any_toOption_eq_true.mp hall
  obtain ⟨hsound, hselected⟩ := Bool.and_eq_true_iff.mp hall
  obtain ⟨hreached, hkeyword⟩ := Bool.and_eq_true_iff.mp hsound
  obtain ⟨node, d', branches, hnode, hd', _, _, hrecords, hinvalid, _⟩ :=
    dispatch_outcome hg rfl hp (List.contains_iff_mem.mp hreached) hn hkeyword
  rw [hd] at hd'
  cases hd'
  refine ⟨g, p, node, d, hg, hp, hnode, hd, beq_iff_eq.mp hselected, fun k hk hname => ?_,
    hinvalid (.object []) rfl 7 .root true⟩
  obtain ⟨branch, _, hbranch⟩ := (hrecords k hk hname _ .root).1 0 (beq_iff_eq.mp hselected)
  exact ⟨branch, hbranch 7 p ⟨rfl, fun _ _ => rfl⟩⟩

end TaggedSchema
