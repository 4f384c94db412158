import TaggedSchema.Proofs.HandingOn
import TaggedSchema.Proofs.Staying

/-!
# The keywords that combine schemas

What `$ref`, `allOf`, `anyOf`, `oneOf`, `not` and `if` make of the schemas below them
(`CompiledNode.Combines`), on any value, in any frame, and whatever the report already holds: each
schema finds errors in its own frame, and the keyword adds all of them, or some, and an error of its
own or none. What does not count, it does not add: below `not` and `if` nothing is kept, below `then`
and `else` only where the condition leads, and below `anyOf` and `oneOf` nothing as long as one schema
holds (`Node.Keeps`). A report holds the errors that are raised where everything on the way is kept,
and no others (`Compiler.combinators_isolate`).
-/

namespace TaggedSchema

/-! ## 1. Rules of keywords -/

/-- The node has a rule of that name, and on every collecting report each of them adds just these
    errors. -/
def CompiledNode.Adds (node : CompiledNode) (p : Program) (name : String) (value : Json) (f : Frame)
    (errors : List ValidationError) : Prop :=
  (∃ k ∈ node.keywords, k.name = name) ∧ ∀ k ∈ node.keywords, k.name = name →
    ∀ out, out.failFast = false →
      k.rule.run (fun _ => (pure () : Id Unit)) p.settled name value f out
        = ⟨false, out.errors ++ errors⟩

/-- **What a node's keywords add that combine schemas**, by what is found in the schemas below
    them. A node is `exhaustive` where no discriminator is honoured. -/
structure CompiledNode.Combines (node : CompiledNode) (p : Program) (n : Node) (exhaustive : Prop)
    (value : Json) (f : Frame) : Prop where
  ref : ∀ target, n.reference = some target →
    node.Adds p "$ref" value f (p.found target value (f.nested ["$ref"]))
  allOf : ∀ schemas, n.childList? "allOf" = some schemas →
    node.Adds p "allOf" value f (Rule.branchErrors p.found f "allOf" value 0 schemas).flatten
  anyOf : ∀ schemas, n.childList? "anyOf" = some schemas →
    let found := Rule.branchErrors p.found f "anyOf" value 0 schemas
    ([] ∈ found → node.Adds p "anyOf" value f []) ∧
      ([] ∉ found → node.Adds p "anyOf" value f
        (found.flatten ++ [f.error "anyOf" "must match a schema in anyOf"]))
  oneOf : exhaustive → ∀ branches, n.childList? "oneOf" = some branches →
    let found := Rule.branchErrors p.found f "oneOf" value 0 branches
    let matched := (found.filter List.isEmpty).length
    let summary := f.error "oneOf"
      ("must match exactly one schema in oneOf (matched " ++ Nat.repr matched ++ ")")
    (matched = 1 → node.Adds p "oneOf" value f []) ∧
      (matched = 0 → node.Adds p "oneOf" value f (found.flatten ++ [summary])) ∧
      (1 < matched → node.Adds p "oneOf" value f [summary])
  negation : ∀ schema, n.child? "not" = some schema →
    let found := p.found schema value (f.nested ["not"])
    (found = [] → node.Adds p "not" value f [f.error "not" "must NOT be valid"]) ∧
      (found ≠ [] → node.Adds p "not" value f [])
  /-- The condition says which sibling counts. -/
  conditional : ∀ condition, n.child? "if" = some condition →
    n.child? "then" ≠ none ∨ n.child? "else" ≠ none → ∀ sibling,
    sibling = (if p.found condition value (f.nested ["if"]) = [] then "then" else "else") →
    (n.child? sibling = none → node.Adds p "if" value f []) ∧
      ∀ schema, n.child? sibling = some schema →
        let found := p.found schema value (f.nested [sibling])
        (found = [] → node.Adds p "if" value f []) ∧
          (found ≠ [] → node.Adds p "if" value f
            (found ++ [f.error "if" ("must match \"" ++ sibling ++ "\" schema")]))
  /-- Without a sibling to lead to, a condition asserts nothing. -/
  unconditional : n.child? "then" = none → n.child? "else" = none →
    ∀ k ∈ node.keywords, k.name ≠ "if"
  /-- The siblings of a condition assert nothing themselves. -/
  siblings : ∀ k ∈ node.keywords, k.name ≠ "then" ∧ k.name ≠ "else"

namespace Rule

variable {find : Finder} {value : Json} {f : Frame}

/-- What `oneOf` finds, by the number of branches that hold. -/
theorem oneOfErrors_cases {keyword : String} {found : List (List ValidationError)} {matched : Nat}
    (h : (found.filter List.isEmpty).length = matched) :
    (matched = 1 → oneOfErrors f keyword found = []) ∧
      (matched = 0 → oneOfErrors f keyword found = found.flatten ++ [f.error keyword
        ("must match exactly one schema in oneOf (matched " ++ Nat.repr matched ++ ")")]) ∧
      (1 < matched → oneOfErrors f keyword found = [f.error keyword
        ("must match exactly one schema in oneOf (matched " ++ Nat.repr matched ++ ")")]) := by
  subst h
  simp only [oneOfErrors]
  refine ⟨fun h => if_pos h, fun h => ?_, fun h => ?_⟩
  · rw [if_neg (by omega), if_pos h]
  · rw [if_neg (by omega), if_neg (by omega)]
    rfl

/-- `not` finds one error where its schema finds none. -/
theorem errors_not (schema : NodeId) :
    (assertion (Check.not schema).run).errors find "not" value f
      = if find schema value (f.nested ["not"]) = [] then [f.error "not" "must NOT be valid"]
        else [] := by
  show Dialogue.errors find "not" f
    (if (find schema value (f.nested ["not"])).isEmpty = true then _ else _) = _
  simp only [List.isEmpty_iff]
  split <;> rfl

/-- The schema to which a condition leads counts as it is, with one error more where it finds any. -/
theorem errors_branch (keyword sibling : String) (schema : NodeId) :
    (Check.branch sibling (some schema) value).errors find keyword f
      = if find schema value (f.nested [sibling]) = [] then []
        else find schema value (f.nested [sibling])
          ++ [f.error keyword ("must match \"" ++ sibling ++ "\" schema")] := by
  show find schema value (f.nested [sibling]) ++ Dialogue.errors find keyword f
    (if (find schema value (f.nested [sibling])).isEmpty = true then _ else _) = _
  simp only [List.isEmpty_iff]
  split
  next h =>
    rw [h]
    rfl
  next => rfl

/-- `if` finds what is found under the sibling to which its condition leads. -/
theorem errors_conditional (child? : String → Option NodeId) {condition : NodeId} {sibling : String}
    (h : sibling = if find condition value (f.nested ["if"]) = [] then "then" else "else") :
    (assertion (Check.conditional condition (child? "then") (child? "else")).run).errors find "if"
        value f
      = (Check.branch sibling (child? sibling) value).errors find "if" f := by
  subst h
  show Dialogue.errors find "if" f
    (if (find condition value (f.nested ["if"])).isEmpty = true then _ else _) = _
  simp only [List.isEmpty_iff]
  split <;> rfl

end Rule

/-- A node adds what its one rule of a name finds. -/
theorem CompiledNode.adds_of_only {node : CompiledNode} {p : Program} (hp : p.IsBuiltin)
    {name : String} {rule : Rule}
    (h : (∃ k ∈ node.keywords, k.name = name) ∧ ∀ k ∈ node.keywords, k.name = name → k.rule = rule)
    {value : Json} {f : Frame} : node.Adds p name value f (rule.errors p.found name value f) := by
  refine ⟨h.1, fun k hk hname out hout => ?_⟩
  rw [h.2 k hk hname, Rule.run_eq_pushAll (Program.pushes_settled hp)]
  exact Report.pushAll_collecting hout _

namespace Compiler

variable {c : Compiler} {store : Store} {g : Graph} {start id : NodeId} {p : Program} {n : Node}
  {d : Option Discriminator} {value : Json} {rule : Option Rule} {node : CompiledNode} {f : Frame}

/-! ## 2. Rules of nodes -/

/-- The rule of a built-in keyword is the check to which it is compiled. -/
theorem keywordRule_eq [Pattern.Library] (hregistry : c.registry = .default) {name : String}
    {compile : Occurrence → Except SchemaError (Option Check)}
    (hname : CoreKeyword.ofName? name = none ∧ isAnnotationKeyword name = false)
    (hplugin : Registry.default.find? name = some (Builtin.plugin compile)) :
    c.keywordRule g id n d name value
      = (compile ⟨name, value, id, n, g⟩).map fun check =>
        check.map fun check => .assertion check.run := by
  unfold keywordRule
  rw [hname.1, hname.2]
  unfold pluginRule
  rw [hregistry, hplugin]
  show (Builtin.plugin compile ⟨name, value, id, n, g⟩ >>= fun act => pure (act.map Rule.assertion))
    = _
  unfold Builtin.plugin
  cases compile ⟨name, value, id, n, g⟩ with
  | error e => rfl
  | ok check => exact congrArg Except.ok (Option.map_map ..)

/-- A built-in keyword has the check to which it is compiled. -/
theorem check_of_keywordRule [Pattern.Library] (hregistry : c.registry = .default) {name : String}
    {compile : Occurrence → Except SchemaError (Option Check)}
    (hname : CoreKeyword.ofName? name = none ∧ isAnnotationKeyword name = false)
    (hplugin : Registry.default.find? name = some (Builtin.plugin compile))
    (h : c.keywordRule g id n d name value = .ok rule) :
    ∃ check, compile ⟨name, value, id, n, g⟩ = .ok check ∧
      rule = check.map fun check => .assertion check.run := by
  rw [keywordRule_eq hregistry hname hplugin] at h
  cases hcheck : compile ⟨name, value, id, n, g⟩ with
  | error e =>
    rw [hcheck] at h
    cases h
  | ok check =>
    rw [hcheck] at h
    exact ⟨check, rfl, (Except.ok.inj h).symm⟩

theorem not_of_keywordRule [Pattern.Library] (hregistry : c.registry = .default)
    (h : c.keywordRule g id n d "not" value = .ok rule) :
    ∃ schema, n.child? "not" = some schema ∧ rule = some (.assertion (Check.not schema).run) := by
  obtain ⟨check, hcheck, rfl⟩ := check_of_keywordRule hregistry (by decide) rfl h
  obtain ⟨schema, hschema, rfl⟩ := bind_pure_eq_ok.mp hcheck
  exact ⟨schema, Occurrence.child?_of_subschema hschema, rfl⟩

/-- The rule of `if`, and whether there is one. -/
theorem conditional_of_keywordRule [Pattern.Library] (hregistry : c.registry = .default)
    (h : c.keywordRule g id n d "if" value = .ok rule) :
    ∃ condition, n.child? "if" = some condition ∧
      (n.child? "then" = none → n.child? "else" = none → rule = none) ∧
      (n.child? "then" ≠ none ∨ n.child? "else" ≠ none →
        rule = some (.assertion
          (Check.conditional condition (n.child? "then") (n.child? "else")).run)) := by
  obtain ⟨check, hcheck, rfl⟩ := check_of_keywordRule hregistry (by decide) rfl h
  obtain ⟨condition, hcondition, hcheck⟩ := bind_eq_ok.mp hcheck
  refine ⟨condition, Occurrence.child?_of_subschema hcondition, ?_⟩
  dsimp only at hcheck
  generalize n.child? "then" = positive at hcheck ⊢
  generalize n.child? "else" = negative at hcheck ⊢
  cases positive <;> cases negative <;> cases hcheck <;> simp

/-- A keyword that is left to a sibling has no rule. -/
theorem passive_of_keywordRule [Pattern.Library] (hregistry : c.registry = .default) {name : String}
    (hname : CoreKeyword.ofName? name = none ∧ isAnnotationKeyword name = false)
    (hplugin : Registry.default.find? name = some (Builtin.plugin Builtin.passive))
    (h : c.keywordRule g id n d name value = .ok rule) : rule = none := by
  obtain ⟨check, hcheck, rfl⟩ := check_of_keywordRule hregistry hname hplugin h
  cases hcheck
  rfl

/-- No discriminator is honoured at the node: its `oneOf` tries every branch. -/
def Exhausts (c : Compiler) (n : Node) : Prop :=
  ¬ (c.options.discriminator = true ∧ n.hasKeyword "discriminator" = true)

/-- Where no discriminator is honoured, the keywords are compiled without one. -/
theorem discriminatorOf_eq_none (h : c.Exhausts n)
    (hd : c.discriminatorOf g id n = .ok d) : d = none := by
  unfold discriminatorOf at hd
  rw [if_neg (by rwa [Bool.and_eq_true])] at hd
  exact (Except.ok.inj hd).symm

/-- A keyword that compiles to one rule only adds what that rule finds. -/
theorem adds_of_keywordRule (hcompiled : c.compileNode g id n = .ok node) (hp : p.IsBuiltin)
    {name : String} (only : Rule) (hkeyword : n.hasKeyword name = true)
    (hrule : ∀ d value rule, c.discriminatorOf g id n = .ok d →
      c.keywordRule g id n d name value = .ok rule → rule = some only)
    (value : Json) (f : Frame) :
    node.Adds p name value f (only.errors p.found name value f) := by
  obtain ⟨d, hd, hrules⟩ := keywordRules_of_compileNode hkeyword hcompiled
  have honly := only_rule hrules hkeyword fun value rule => hrule d value rule hd
  exact CompiledNode.adds_of_only hp honly

/-- A keyword that never compiles to a rule has none in the node. -/
theorem name_ne_of_keywordRule (hcompiled : c.compileNode g id n = .ok node) {name : String}
    (hname : name ≠ "false")
    (hrule : ∀ d value rule, c.keywordRule g id n d name value = .ok rule → rule = none) :
    ∀ k ∈ node.keywords, k.name ≠ name := by
  rintro k hk rfl
  obtain ⟨d, value, _, hcompiledRule⟩ := keywordRule_of_ne_false hcompiled hk hname
  cases hrule d value _ hcompiledRule

section Combining

variable [Uri.Library] (hg : g.Resolved store) (hn : g.node? id = some n)
  (hcompiled : c.compileNode g id n = .ok node) (hp : p.IsBuiltin) (value : Json) (f : Frame)

include hg hn hcompiled hp

theorem adds_ref {target : NodeId} (h : n.reference = some target) :
    node.Adds p "$ref" value f (p.found target value (f.nested ["$ref"])) := by
  refine adds_of_keywordRule hcompiled hp (.ref target) (hg.hasKeyword_of_reference hn h)
    (fun _ _ _ _ hrule => ?_) value f
  cases coreRule_of_keywordRule .ref hrule with
  | ref htarget => rw [Option.some.inj (h.symm.trans htarget)]

theorem adds_allOf {schemas : List NodeId} (h : n.childList? "allOf" = some schemas) :
    node.Adds p "allOf" value f (Rule.branchErrors p.found f "allOf" value 0 schemas).flatten := by
  have hwritten := hg.hasKeyword_of_children hn (Node.children?_of_childList? h)
  refine adds_of_keywordRule hcompiled hp (.allOf schemas) hwritten
    (fun _ _ _ _ hrule => ?_) value f
  cases coreRule_of_keywordRule .allOf hrule with
  | allOf hlist => rw [Option.some.inj (h.symm.trans hlist)]

theorem adds_anyOf {schemas : List NodeId} (h : n.childList? "anyOf" = some schemas) :
    node.Adds p "anyOf" value f
      (Rule.anyOfErrors f "anyOf" (Rule.branchErrors p.found f "anyOf" value 0 schemas)) := by
  have hwritten := hg.hasKeyword_of_children hn (Node.children?_of_childList? h)
  refine adds_of_keywordRule hcompiled hp (.anyOf schemas) hwritten
    (fun _ _ _ _ hrule => ?_) value f
  cases coreRule_of_keywordRule .anyOf hrule with
  | anyOf hlist => rw [Option.some.inj (h.symm.trans hlist)]

theorem adds_oneOf (hexhausts : c.Exhausts n) {branches : List NodeId}
    (h : n.childList? "oneOf" = some branches) :
    node.Adds p "oneOf" value f
      (Rule.oneOfErrors f "oneOf" (Rule.branchErrors p.found f "oneOf" value 0 branches)) := by
  have hwritten := hg.hasKeyword_of_children hn (Node.children?_of_childList? h)
  refine adds_of_keywordRule hcompiled hp (.oneOf branches) hwritten
    (fun d _ _ hd hrule => ?_) value f
  cases discriminatorOf_eq_none hexhausts hd
  cases coreRule_of_keywordRule .oneOf hrule with
  | oneOf hlist => rw [Option.some.inj (h.symm.trans hlist)]
  | dispatch _ hfound => cases hfound

variable [Pattern.Library]

theorem adds_not (hregistry : c.registry = .default) {schema : NodeId}
    (h : n.child? "not" = some schema) :
    node.Adds p "not" value f
      (if p.found schema value (f.nested ["not"]) = [] then [f.error "not" "must NOT be valid"]
        else []) := by
  have hwritten := hg.hasKeyword_of_children hn (Node.children?_of_child? h)
  rw [← Rule.errors_not]
  refine adds_of_keywordRule hcompiled hp _ hwritten (fun _ _ _ _ hrule => ?_) value f
  obtain ⟨found, hfound, hrule⟩ := not_of_keywordRule hregistry hrule
  rw [hrule, Option.some.inj (h.symm.trans hfound)]

/-- A condition with a sibling adds what is found under the sibling to which it leads. -/
theorem adds_if (hregistry : c.registry = .default) {condition : NodeId}
    (h : n.child? "if" = some condition)
    (hsibling : n.child? "then" ≠ none ∨ n.child? "else" ≠ none) {sibling : String}
    (hwhich : sibling = if p.found condition value (f.nested ["if"]) = [] then "then" else "else") :
    node.Adds p "if" value f
      ((Check.branch sibling (n.child? sibling) value).errors p.found "if" f) := by
  have hwritten := hg.hasKeyword_of_children hn (Node.children?_of_child? h)
  rw [← Rule.errors_conditional n.child? hwhich]
  refine adds_of_keywordRule hcompiled hp _ hwritten (fun _ _ _ _ hrule => ?_) value f
  obtain ⟨found, hfound, _, hrule⟩ := conditional_of_keywordRule hregistry hrule
  rw [hrule hsibling, Option.some.inj (h.symm.trans hfound)]

/-- **The keywords of a compiled node combine schemas** as they should. -/
theorem combines_of_compileNode (hregistry : c.registry = .default) :
    node.Combines p n (c.Exhausts n) value f := by
  refine ⟨fun target h => adds_ref hg hn hcompiled hp value f h,
    fun schemas h => adds_allOf hg hn hcompiled hp value f h, fun schemas h => ?anyOf,
    fun hexhausts branches h => ?oneOf, fun schema h => ?negation,
    fun condition h hsibling sibling hwhich => ?conditional, fun hthen helse => ?unconditional,
    fun k hk => ?siblings⟩
  case anyOf =>
    have hadds := adds_anyOf hg hn hcompiled hp value f h
    rw [Rule.anyOfErrors_eq] at hadds
    exact ⟨fun hany => by rwa [if_pos hany] at hadds, fun hnone => by rwa [if_neg hnone] at hadds⟩
  case oneOf =>
    have hadds := adds_oneOf hg hn hcompiled hp value f hexhausts h
    obtain ⟨hone, hzero, hmany⟩ := Rule.oneOfErrors_cases rfl
    exact ⟨fun h => hone h ▸ hadds, fun h => hzero h ▸ hadds, fun h => hmany h ▸ hadds⟩
  case negation =>
    have hadds := adds_not hg hn hcompiled hp value f hregistry h
    exact ⟨fun hholds => by rwa [if_pos hholds] at hadds,
      fun hfails => by rwa [if_neg hfails] at hadds⟩
  case conditional =>
    have hadds := adds_if hg hn hcompiled hp value f hregistry h hsibling hwhich
    refine ⟨fun hnone => ?_, fun schema hschema => ?_⟩
    · rw [hnone] at hadds
      exact hadds
    · rw [hschema, Rule.errors_branch] at hadds
      exact ⟨fun hholds => by rwa [if_pos hholds] at hadds,
        fun hfails => by rwa [if_neg hfails] at hadds⟩
  case unconditional =>
    refine name_ne_of_keywordRule hcompiled (by decide) fun _ _ _ hrule => ?_
    obtain ⟨_, _, hnone, _⟩ := conditional_of_keywordRule hregistry hrule
    exact hnone hthen helse
  case siblings =>
    have hpassive {name : String} (hname : name ≠ "false")
        (hkeyword : CoreKeyword.ofName? name = none ∧ isAnnotationKeyword name = false)
        (hplugin : Registry.default.find? name = some (Builtin.plugin Builtin.passive)) :
        k.name ≠ name :=
      name_ne_of_keywordRule hcompiled hname
        (fun _ _ _ hrule => passive_of_keywordRule hregistry hkeyword hplugin hrule) k hk
    exact ⟨hpassive (by decide) (by decide) rfl, hpassive (by decide) (by decide) rfl⟩

end Combining

end Compiler

/-! ## 3. What is kept -/

/-- The keywords below which not everything is kept. -/
def selectiveKeywords : List String := ["anyOf", "oneOf", "not", "if", "then", "else"]

/-- **What a node keeps** of the schemas below it, by the keyword under which they stand: the sibling
    to which a condition leads, alternatives where none of them holds, and everything below other
    keywords; nothing that is only tested. -/
inductive Node.Keeps (n : Node) (p : Program) (exhaustive : Prop) (value : Json) (f : Frame) :
    String → Prop where
  | positive {condition : NodeId} (h : n.child? "if" = some condition)
      (hholds : p.found condition value (f.nested ["if"]) = []) :
      Keeps n p exhaustive value f "then"
  | negative {condition : NodeId} (h : n.child? "if" = some condition)
      (hfails : p.found condition value (f.nested ["if"]) ≠ []) :
      Keeps n p exhaustive value f "else"
  | anyOf {schemas : List NodeId} (h : n.childList? "anyOf" = some schemas)
      (hnone : [] ∉ Rule.branchErrors p.found f "anyOf" value 0 schemas) :
      Keeps n p exhaustive value f "anyOf"
  | oneOf {branches : List NodeId} (h : n.childList? "oneOf" = some branches)
      (hnone : exhaustive → [] ∉ Rule.branchErrors p.found f "oneOf" value 0 branches) :
      Keeps n p exhaustive value f "oneOf"
  | other {name : String} (h : name ∉ selectiveKeywords) : Keeps n p exhaustive value f name

namespace Node.Keeps

variable {n : Node} {p : Program} {exhaustive : Prop} {value : Json} {f : Frame}

/-- Nothing that is only tested is kept. -/
theorem not_tested {name : String} (h : n.Keeps p exhaustive value f name) :
    name ≠ "not" ∧ name ≠ "if" := by
  cases h with
  | positive => decide
  | negative => decide
  | anyOf => decide
  | oneOf => decide
  | other h => exact ⟨fun he => h (he ▸ by decide), fun he => h (he ▸ by decide)⟩

theorem of_condition {condition : NodeId} (h : n.child? "if" = some condition) :
    n.Keeps p exhaustive value f
      (if p.found condition value (f.nested ["if"]) = [] then "then" else "else") := by
  split
  next hholds => exact .positive h hholds
  next hfails => exact .negative h hfails

end Node.Keeps

namespace Check

variable {find : Finder} {value : Json} {f : Frame} {place : SchemaPlace} {r : Request}

/-- `not` hands on nothing. -/
theorem not_handsOn_not {schema : NodeId} :
    ¬ ((Check.not schema).run value).HandsOn find "not" f place r := by
  intro h
  change Dialogue.HandsOn find "not" f place r
    (if (find schema value (f.nested ["not"])).isEmpty = true then _ else _) at h
  split at h <;> exact h

/-- `if` hands on the sibling to which its condition leads. -/
theorem place_of_conditional_handsOn {condition : NodeId} {positive negative : Option NodeId}
    (h : ((Check.conditional condition positive negative).run value).HandsOn find "if" f place r) :
    place = .sibling
      (if find condition value (f.nested ["if"]) = [] then "then" else "else") := by
  have hbranch {sibling : String} {schema : Option NodeId}
      (h : (branch sibling schema value).HandsOn find "if" f place r) :
      place = .sibling sibling := by
    cases schema with
    | none => exact h.elim
    | some schema =>
      rcases h with ⟨rfl, _⟩ | h
      · rfl
      · dsimp only at h
        split at h <;> exact h.elim
  change Dialogue.HandsOn find "if" f place r
    (if (find condition value (f.nested ["if"])).isEmpty = true then _ else _) at h
  simp only [List.isEmpty_iff] at h
  split at h
  next hholds => rw [hbranch h, if_pos hholds]
  next hfails => rw [hbranch h, if_neg hfails]

/-- What the other checks ask for, stands under keywords below which everything is kept. -/
theorem Offers.segmentsOf_not_selective {c : Check} {id : NodeId} (h : c.Offers place id)
    (hnot : c.keyword ≠ "not") (hif : c.keyword ≠ "if") :
    ∃ name rest, Frame.segmentsOf c.keyword place = name :: rest ∧ name ∉ selectiveKeywords := by
  cases h with
  | not => exact absurd rfl hnot
  | condition => exact absurd rfl hif
  | positive => exact absurd rfl hif
  | negative => exact absurd rfl hif
  | additional => exact ⟨_, _, rfl, by decide⟩
  | _ => exact ⟨_, _, rfl, by simp [Check.keyword, selectiveKeywords]⟩

end Check

namespace Compiler

variable {c : Compiler} {store : Store} {g : Graph} {start id : NodeId} {p : Program} {n : Node}
  {d : Option Discriminator}

/-- What a keyword of the core hands on, its node keeps. -/
theorem keeps_of_coreRule (hd : c.discriminatorOf g id n = .ok d) {core : CoreKeyword}
    {written : Json} {rule : Rule} (hcore : CoreRule n d written core (some rule)) {value : Json}
    {f : Frame} {segments : List String} {r : Request}
    (hr : rule.HandsOn p.found core.name value f segments r) :
    ∃ name rest, segments = name :: rest ∧ n.Keeps p (c.Exhausts n) value f name := by
  cases hr with
  | property =>
    cases hcore
    exact ⟨_, _, rfl, .other (by decide)⟩
  | ref =>
    cases hcore
    exact ⟨_, _, rfl, .other (by decide)⟩
  | allOf =>
    cases hcore
    exact ⟨_, _, rfl, .other (by decide)⟩
  | anyOf hnone =>
    cases hcore with
    | anyOf hs => exact ⟨_, _, rfl, .anyOf hs hnone⟩
  | oneOf hnone =>
    cases hcore with
    | oneOf hs => exact ⟨_, _, rfl, .oneOf hs fun _ => hnone⟩
  | dispatch =>
    cases hcore with
    | dispatch hs hfound =>
      refine ⟨_, _, rfl, .oneOf hs fun hexhausts => ?_⟩
      cases (discriminatorOf_eq_none hexhausts hd).symm.trans hfound
  | assertion => cases hcore

variable [Pattern.Library]

/-- **What a keyword hands on, its node keeps.** -/
theorem keeps_of_handsOn (hregistry : c.registry = .default) (hd : c.discriminatorOf g id n = .ok d)
    {keyword : String} {written : Json} {rule : Rule}
    (hrule : c.keywordRule g id n d keyword written = .ok (some rule)) {value : Json} {f : Frame}
    {segments : List String} {r : Request}
    (hr : rule.HandsOn p.found keyword value f segments r) :
    ∃ name rest, segments = name :: rest ∧ n.Keeps p (c.Exhausts n) value f name := by
  by_cases hnot : keyword = "not"
  · subst hnot
    obtain ⟨schema, _, he⟩ := not_of_keywordRule hregistry hrule
    cases he
    cases hr with
    | assertion hr => exact absurd hr Check.not_handsOn_not
  by_cases hif : keyword = "if"
  · subst hif
    obtain ⟨condition, hcondition, hnone, hsome⟩ := conditional_of_keywordRule hregistry hrule
    have hsibling : n.child? "then" ≠ none ∨ n.child? "else" ≠ none := by
      by_contra hneither
      obtain ⟨hthen, helse⟩ := not_or.mp hneither
      cases hnone (not_not.mp hthen) (not_not.mp helse)
    cases hsome hsibling
    cases hr with
    | assertion hr =>
      rw [Check.place_of_conditional_handsOn hr]
      exact ⟨_, [], rfl, .of_condition hcondition⟩
  rcases keywordRule_cases hrule with
    ⟨core, hname, hcore⟩ | ⟨_, hnone⟩ | ⟨plugin, act, _, hplugin, hact, he⟩
  · cases name_of_ofName? hname
    exact keeps_of_coreRule hd hcore hr
  · cases hnone
  · cases act with
    | none => cases he
    | some act =>
      cases he
      rw [hregistry] at hplugin
      obtain ⟨compile, check, hmem, hcheck, rfl⟩ := Registry.exists_check_of_find? hplugin hact
      cases Builtin.keyword_of_mem hmem hcheck
      cases hr with
      | assertion hr =>
        obtain ⟨_, hoffers⟩ := Dialogue.Confined.of_requests (check.run_confined value) hr.requests
        obtain ⟨name, rest, hsegments, hname⟩ := hoffers.segmentsOf_not_selective hnot hif
        exact ⟨name, rest, hsegments, .other hname⟩

/-- An evaluation that hands on to another keeps the keyword under which that one stands. -/
theorem exists_keeps_of_handsOn (hregistry : c.registry = .default)
    (hp : c.compile g start = .ok p) {a b : Call} (h : p.HandsOn a b) :
    ∃ n name rest, g.node? a.node = some n ∧
      b.frame.schemaPath.segments = a.frame.schemaPath.segments ++ name :: rest ∧
      n.Keeps p (c.Exhausts n) a.value a.frame name := by
  cases h with
  | @request node k segments r hdepth hnode hk hr =>
    obtain ⟨_, n, hn, hcompiled⟩ := compileNode_of_keyword hp hnode hk
    rcases keywordRule_of_compileNode hcompiled hk with hnever | ⟨d, _, hd, _, hrule⟩
    · rw [hnever] at hr
      cases hr
    · obtain ⟨name, rest, rfl, hkeeps⟩ := keeps_of_handsOn hregistry hd hrule hr
      exact ⟨n, name, rest, hn, by rw [Frame.moved_schemaPath], hkeeps⟩

/-- The errors of an evaluation stand below it in the schema, by induction on the chain to them. -/
theorem exists_append_of_chain (hregistry : c.registry = .default)
    (hp : c.compile g start = .ok p) {a b : Call}
    (h : Relation.ReflTransGen p.HandsOn a b) {e : ValidationError} (he : p.Raises b e) :
    ∃ rest, e.schemaLocation.segments = a.frame.schemaPath.segments ++ rest := by
  induction h using Relation.ReflTransGen.head_induction_on with
  | refl =>
    obtain ⟨own, _, hown⟩ := he.schemaLocation_eq
    exact ⟨own, hown⟩
  | head hands _ ih =>
    obtain ⟨below, hbelow⟩ := ih
    obtain ⟨_, name, rest, _, hpath, _⟩ := exists_keeps_of_handsOn hregistry hp hands
    exact ⟨name :: rest ++ below, by rw [hbelow, hpath, List.append_assoc]⟩

/-- **An error from below a keyword is only found where the keyword is kept.** -/
theorem keeps_of_mem_found (hregistry : c.registry = .default) (hp : c.compile g start = .ok p)
    {a : Call} {e : ValidationError} (he : e ∈ p.found a.node a.value a.frame)
    {name next : String} {rest : List String}
    (hpath : e.schemaLocation.segments = a.frame.schemaPath.segments ++ name :: next :: rest) :
    ∃ n, g.node? a.node = some n ∧ n.Keeps p (c.Exhausts n) a.value a.frame name := by
  have hbuiltin : p.IsBuiltin :=
    isBuiltin_of_registry (hregistry ▸ Registry.isBuiltin_default) hp
  obtain ⟨b, hchain, hraises⟩ := (Program.mem_found_iff hbuiltin).mp he
  rcases hchain.cases_head with rfl | ⟨inner, hands, hchain⟩
  · obtain ⟨own, hlength, hown⟩ := hraises.schemaLocation_eq
    cases List.append_cancel_left (hpath.symm.trans hown)
    simp at hlength
  · obtain ⟨n, first, below, hn, hfirst, hkeeps⟩ := exists_keeps_of_handsOn hregistry hp hands
    obtain ⟨more, hmore⟩ := exists_append_of_chain hregistry hp hchain hraises
    rw [hfirst, List.append_assoc] at hmore
    have hname : name = first :=
      (List.cons.inj (List.append_cancel_left (hpath.symm.trans hmore))).1
    exact ⟨n, hn, hname ▸ hkeeps⟩

/-- **Keywords combine schemas by their verdicts, and leak nothing.** In a program of built-in
    keywords, on any value and in any frame:

    * each node adds to a collecting report what the schemas below it make its keywords add;
    * the errors that are found in an evaluation are those that are raised at the end of a chain of
      evaluations each of which hands on to the one before, and each link of such a chain is kept: it
      is not below `not` or a condition, not below the sibling to which the condition does not lead,
      and not below an `anyOf` or `oneOf` of which a schema holds;
    * so an error that stands below a keyword in the schema is found only where the keyword is kept.

    What is found is what the evaluator adds to any collecting report, and what validation reports. -/
theorem combinators_isolate [Uri.Library] {o : Options} {root : String}
    (hg : Graph.resolve store root = .ok g) (hp : (builtin o).compile g start = .ok p) :
    (∀ id ∈ reached g start, ∀ n, g.node? id = some n → ∃ node, p.nodes[id]? = some node ∧
      ∀ value f, node.Combines p n ((builtin o).Exhausts n) value f) ∧
    (∀ (a : Call) e, e ∈ p.found a.node a.value a.frame ↔
      ∃ b, Relation.ReflTransGen p.HandsOn a b ∧ p.Raises b e) ∧
    (∀ a b, p.HandsOn a b → ∃ n name rest, g.node? a.node = some n ∧
      b.frame.schemaPath.segments = a.frame.schemaPath.segments ++ name :: rest ∧
      n.Keeps p ((builtin o).Exhausts n) a.value a.frame name) ∧
    (∀ (a : Call), ∀ e ∈ p.found a.node a.value a.frame, ∀ name next rest,
      e.schemaLocation.segments = a.frame.schemaPath.segments ++ name :: next :: rest →
      ∃ n, g.node? a.node = some n ∧ n.Keeps p ((builtin o).Exhausts n) a.value a.frame name) ∧
    p.settled = p.step (fun _ => pure ()) p.settled ∧
    (∀ id value f out, out.failFast = false →
      p.settled id value f out = ⟨false, out.errors ++ p.found id value f⟩) ∧
    ∀ value, p.report false value = ⟨false, p.found p.root value .root⟩ := by
  have hbuiltin := isBuiltin_of_compile hp
  obtain ⟨hresolved, _⟩ := Graph.resolved_of_resolve hg
  have hadds (id : NodeId) (value : Json) (f : Frame) {out : Report} (hout : out.failFast = false) :
      p.settled id value f out = ⟨false, out.errors ++ p.found id value f⟩ := by
    rw [Program.pushes_settled hbuiltin]
    exact Report.pushAll_collecting hout _
  refine ⟨fun id hid n hn => ?_, fun a e => Program.mem_found_iff hbuiltin,
    fun a b h => exists_keeps_of_handsOn rfl hp h,
    fun a e he name next rest hpath => keeps_of_mem_found rfl hp he hpath,
    Program.settled_eq_step hbuiltin, fun id value f out hout => hadds id value f hout,
    fun value => ?_⟩
  · obtain ⟨node, hcompiled, hnode⟩ := node_of_reached hp hid hn
    exact ⟨node, hnode, fun value f =>
      combines_of_compileNode hresolved hn hcompiled hbuiltin value f rfl⟩
  · rw [Program.report_eq_settled hbuiltin, hadds _ _ _ rfl]
    rfl

end Compiler

/-- A schema that combines others in four ways. -/
def choices : Json :=
  .object
    [("anyOf", .array
        [.object [("type", .string "string")], .object [("type", .string "number")]]),
      ("if", .object [("type", .string "string")]),
      ("not", .object [("maxLength", .number (.ofNat 1))]),
      ("oneOf", .array [.bool true, .object [("minLength", .number (.ofNat 1))]]),
      ("then", .object [("minLength", .number (.ofNat 2))])]

/-- Nothing is ever reported from below `not` or `if` of that schema; and of a short text, only the
    schema behind `then`, and the keywords that count. -/
theorem Compiler.combinators_isolate_choices :
    ∃ g p, Graph.ofDocument choices = .ok g ∧ (builtin .default).compile g g.root = .ok p ∧
      (∀ value, ∀ e ∈ (p.report false value).errors, ∀ next rest,
        e.schemaLocation.segments ≠ "not" :: next :: rest ∧
          e.schemaLocation.segments ≠ "if" :: next :: rest) ∧
      (p.report false (.string "a")).errors.map (·.schemaLocation.segments)
        = [["then", "minLength"], ["if"], ["not"], ["oneOf"]] := by
  have hall : ((Graph.ofDocument choices).toOption.any fun g =>
      ((builtin .default).compile g g.root).toOption.any fun p =>
        (p.report false (.string "a")).errors.map (·.schemaLocation.segments)
          == [["then", "minLength"], ["if"], ["not"], ["oneOf"]]) = true := by
    decide +kernel
  obtain ⟨g, hg, hall⟩ := any_toOption_eq_true.mp hall
  obtain ⟨p, hp, hreported⟩ := any_toOption_eq_true.mp hall
  obtain ⟨_, _, _, hkeeps, _, _, hreport⟩ := combinators_isolate hg hp
  refine ⟨g, p, hg, hp, fun value e he next rest => ?_, beq_iff_eq.mp hreported⟩
  rw [hreport] at he
  have hkept (name : String) (hpath : e.schemaLocation.segments = name :: next :: rest) :=
    hkeeps (p.rootCall value) e he name next rest hpath
  constructor
  · intro hpath
    obtain ⟨_, _, hkeeps⟩ := hkept _ hpath
    exact hkeeps.not_tested.1 rfl
  · intro hpath
    obtain ⟨_, _, hkeeps⟩ := hkept _ hpath
    exact hkeeps.not_tested.2 rfl

end TaggedSchema
