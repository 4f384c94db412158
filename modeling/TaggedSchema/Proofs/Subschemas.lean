import TaggedSchema.Proofs.FailFast
import TaggedSchema.Proofs.Isolation
import TaggedSchema.Proofs.Reach

/-!
# Where the subschemas of rules come from

A compiled rule holds numbers of nodes. This file fixes where the built-in keywords take them from:
what a check holds at a place is what its node has there, under the keyword or under a sibling
(`Builtin.leadsOwn_of_mem`). With the core keywords it follows that rules lead along the edges that
the compiler visits, and along no others (`Compiler.mem_edges_of_leads`).
-/

namespace TaggedSchema

/-! ## 1. Segments below a node -/

/-- The segments that lead from a node to another in the schema: its reference, or a child under a
    keyword, by its index or its key where there are several. -/
inductive Node.LeadsTo (n : Node) : List String → NodeId → Prop where
  | reference {target : NodeId} (h : n.reference = some target) : LeadsTo n ["$ref"] target
  | single {name : String} {id : NodeId} (h : n.children? name = some (.single id)) :
      LeadsTo n [name] id
  | item {name : String} {ids : List NodeId} {i : Nat} {id : NodeId}
      (h : n.children? name = some (.list ids)) (hi : ids[i]? = some id) :
      LeadsTo n [name, Nat.repr i] id
  | entry {name : String} {entries : List (String × NodeId)} {key : String} {id : NodeId}
      (h : n.children? name = some (.map entries)) (hmem : (key, id) ∈ entries) :
      LeadsTo n [name, key] id

namespace Node

variable {n : Node} {name : String} {id : NodeId}

theorem leadsTo_of_child? (h : n.child? name = some id) : n.LeadsTo [name] id :=
  .single (children?_of_child? h)

theorem leadsTo_of_childList? {ids : List NodeId} (h : n.childList? name = some ids) {i : Nat}
    (hi : ids[i]? = some id) : n.LeadsTo [name, Nat.repr i] id :=
  .item (children?_of_childList? h) hi

theorem leadsTo_of_childMap? {entries : List (String × NodeId)}
    (h : n.childMap? name = some entries) {key : String} (hmem : (key, id) ∈ entries) :
    n.LeadsTo [name, key] id :=
  .entry (children?_of_childMap? h) hmem

/-- Segments below a keyword that is no definition lead to what the node holds or refers to. -/
theorem LeadsTo.holds_or_refers {rest : List String} (h : n.LeadsTo (name :: rest) id)
    (hname : isDefinitions name = false) : n.Holds id ∨ n.reference = some id := by
  cases h with
  | reference h => exact Or.inr h
  | single h => exact Or.inl ⟨_, _, mem_of_lookup h, hname, List.mem_singleton.mpr rfl⟩
  | item h hi => exact Or.inl ⟨_, _, mem_of_lookup h, hname, List.mem_of_getElem? hi⟩
  | entry h hmem =>
    exact Or.inl ⟨_, _, mem_of_lookup h, hname, List.mem_map_of_mem (f := (·.2)) hmem⟩

end Node

namespace Occurrence

variable {o : Occurrence}

theorem child?_of_subschema {id : NodeId} (h : o.subschema = .ok id) :
    o.node.child? o.keyword = some id := by
  unfold subschema at h
  split at h
  next id' hchild =>
    cases h
    exact hchild
  next => cases h

theorem childList?_of_subschemas {ids : List NodeId} (h : o.subschemas = .ok ids) :
    o.node.childList? o.keyword = some ids := by
  unfold subschemas at h
  split at h
  next ids' hchildren =>
    cases h
    exact hchildren
  next => cases h

theorem childMap?_of_subschemaMap {entries : List (String × NodeId)}
    (h : o.subschemaMap = .ok entries) : o.node.childMap? o.keyword = some entries := by
  unfold subschemaMap at h
  split at h
  next entries' hchildren =>
    cases h
    exact hchildren
  next => cases h

end Occurrence

/-! ## 2. The built-in keywords -/

namespace Builtin

/-- What the checks of a keyword hold at a place is what the node has there. -/
def LeadsOwn (compile : Occurrence → Except SchemaError (Option Check)) : Prop :=
  ∀ o check, compile o = .ok (some check) → ∀ place id, check.Offers place id →
    o.node.LeadsTo (Frame.segmentsOf o.keyword place) id

/-- A keyword whose checks hold no subschemas at all. -/
theorem leadsOwn_of_none {compile : Occurrence → Except SchemaError (Option Check)}
    (h : ∀ o check, compile o = .ok (some check) → ∀ place id, ¬ check.Offers place id) :
    LeadsOwn compile :=
  fun o check hcheck place id hoffers => absurd hoffers (h o check hcheck place id)

theorem leadsOwn_passive : LeadsOwn passive := leadsOwn_of_none fun _ _ h => by cases h

/-- A keyword that reads its value and makes a check without subschemas of it. -/
theorem leadsOwn_of_value {α : Type} {compile : Occurrence → Except SchemaError (Option Check)}
    {read : Occurrence → Except SchemaError α} {make : Occurrence → α → Check}
    (h : ∀ o, compile o = (read o >>= fun a => pure (some (make o a))))
    (hmake : ∀ o a place id, ¬ (make o a).Offers place id) : LeadsOwn compile :=
  leadsOwn_of_none fun o check hcheck => by
    rw [h o] at hcheck
    obtain ⟨a, _, he⟩ := bind_pure_eq_ok.mp hcheck
    cases he
    exact hmake o a

/-- A keyword that makes a check of its one subschema. -/
theorem leadsOwn_of_subschema {compile : Occurrence → Except SchemaError (Option Check)}
    {make : NodeId → Check} (h : ∀ o, compile o = (o.subschema >>= fun id => pure (some (make id))))
    (hmake : ∀ schema place id, (make schema).Offers place id → place = .own none ∧ id = schema) :
    LeadsOwn compile := by
  intro o check hcheck place id hoffers
  rw [h o] at hcheck
  obtain ⟨schema, hschema, he⟩ := bind_pure_eq_ok.mp hcheck
  cases he
  obtain ⟨rfl, rfl⟩ := hmake _ _ _ hoffers
  exact Node.leadsTo_of_child? (Occurrence.child?_of_subschema hschema)

theorem leadsOwn_not : LeadsOwn not :=
  leadsOwn_of_subschema (fun _ => rfl) fun _ _ _ h => by
    cases h
    exact ⟨rfl, rfl⟩

theorem leadsOwn_propertyNames : LeadsOwn propertyNames :=
  leadsOwn_of_subschema (fun _ => rfl) fun _ _ _ h => by
    cases h
    exact ⟨rfl, rfl⟩

theorem leadsOwn_contains : LeadsOwn contains := by
  intro o check h place id hoffers
  obtain ⟨least, _, h⟩ := bind_eq_ok.mp h
  obtain ⟨most, _, h⟩ := bind_eq_ok.mp h
  obtain ⟨schema, hschema, he⟩ := bind_pure_eq_ok.mp h
  cases he
  cases hoffers
  exact Node.leadsTo_of_child? (Occurrence.child?_of_subschema hschema)

theorem leadsOwn_additionalProperties [Pattern.Library] : LeadsOwn additionalProperties := by
  intro o check h place id hoffers
  obtain ⟨schema, hschema, h⟩ := bind_eq_ok.mp h
  obtain ⟨patterns, _, he⟩ := bind_pure_eq_ok.mp h
  cases he
  cases hoffers
  exact Node.leadsTo_of_child? (Occurrence.child?_of_subschema hschema)

theorem leadsOwn_leadingItems : LeadsOwn leadingItems := by
  intro o check h place id hoffers
  obtain ⟨schemas, hschemas, he⟩ := bind_pure_eq_ok.mp h
  cases he
  cases hoffers with
  | leading hi => exact Node.leadsTo_of_childList? (Occurrence.childList?_of_subschemas hschemas) hi

theorem leadsOwn_dependentSchemas : LeadsOwn dependentSchemas := by
  intro o check h place id hoffers
  obtain ⟨entries, hentries, he⟩ := bind_pure_eq_ok.mp h
  cases he
  cases hoffers with
  | dependent hmem =>
    exact Node.leadsTo_of_childMap? (Occurrence.childMap?_of_subschemaMap hentries) hmem

/-- Reading the keys of entries keeps their texts and their schemas. -/
theorem map_text_of_read [Pattern.Library] {o : Occurrence} {entries : List (String × NodeId)}
    {read : List (NamedPattern × NodeId)}
    (h : (entries.mapM fun entry => do return (← keyPattern o entry.1, entry.2)) = .ok read) :
    read.map (fun entry => (entry.1.text, entry.2)) = entries := by
  induction entries generalizing read with
  | nil =>
    cases h
    rfl
  | cons entry rest ih =>
    rw [List.mapM_cons] at h
    obtain ⟨first, hfirst, h⟩ := bind_eq_ok.mp h
    obtain ⟨more, hmore, he⟩ := bind_pure_eq_ok.mp h
    obtain ⟨p, hp, rfl⟩ := bind_pure_eq_ok.mp hfirst
    have htext : p.text = entry.1 := by
      unfold keyPattern at hp
      split at hp
      next =>
        cases hp
        rfl
      next => cases hp
    subst he
    rw [List.map_cons, ih hmore, htext]

theorem leadsOwn_patternProperties [Pattern.Library] : LeadsOwn patternProperties := by
  intro o check h place id hoffers
  obtain ⟨entries, hentries, h⟩ := bind_eq_ok.mp h
  obtain ⟨read, hread, he⟩ := bind_pure_eq_ok.mp h
  cases he
  cases hoffers with
  | @pattern _ p _ hmem =>
    have hentry := List.mem_map_of_mem (f := fun entry => (entry.1.text, entry.2)) hmem
    rw [map_text_of_read hread] at hentry
    exact Node.leadsTo_of_childMap? (Occurrence.childMap?_of_subschemaMap hentries) hentry

theorem leadsOwn_items : LeadsOwn items := by
  intro o check h place id hoffers
  unfold items at h
  split at h
  next schema hc =>
    cases h
    cases hoffers
    exact .single hc
  next schemas hc =>
    cases h
    generalize hadditional : o.node.child? "additionalItems" = additional at hoffers
    cases hoffers with
    | position hi => exact .item hc hi
    | additional => exact Node.leadsTo_of_child? hadditional
  next => cases h

theorem leadsOwn_conditional : LeadsOwn conditional := by
  intro o check h place id hoffers
  obtain ⟨condition, hcondition, h⟩ := bind_eq_ok.mp h
  have he : check = .conditional condition (o.node.child? "then") (o.node.child? "else") := by
    split at h
    next => cases h
    next => exact (Option.some.inj (Except.ok.inj h)).symm
  generalize hpositive : o.node.child? "then" = positive at he
  generalize hnegative : o.node.child? "else" = negative at he
  subst he
  cases hoffers with
  | condition => exact Node.leadsTo_of_child? (Occurrence.child?_of_subschema hcondition)
  | positive => exact Node.leadsTo_of_child? hpositive
  | negative => exact Node.leadsTo_of_child? hnegative

theorem leadsOwn_bound (comparison : Comparison) : LeadsOwn (bound comparison) :=
  leadsOwn_of_value (fun _ => rfl) fun _ _ _ _ h => by cases h

theorem leadsOwn_length (limit : Nat → Limit) : LeadsOwn (length limit) :=
  leadsOwn_of_value (fun _ => rfl) fun _ _ _ _ h => by cases h

theorem leadsOwn_itemCount (limit : Nat → Limit) : LeadsOwn (itemCount limit) :=
  leadsOwn_of_value (fun _ => rfl) fun _ _ _ _ h => by cases h

theorem leadsOwn_propertyCount (limit : Nat → Limit) : LeadsOwn (propertyCount limit) :=
  leadsOwn_of_value (fun _ => rfl) fun _ _ _ _ h => by cases h

theorem leadsOwn_multipleOf : LeadsOwn multipleOf :=
  leadsOwn_of_none fun _ _ h _ _ hoffers => by
    obtain ⟨_, _, h⟩ := bind_eq_ok.mp h
    split at h
    · cases h
    · cases h
      cases hoffers

theorem leadsOwn_pattern [Pattern.Library] : LeadsOwn pattern :=
  leadsOwn_of_none fun _ _ h _ _ hoffers => by
    unfold pattern at h
    split at h
    · split at h
      · cases h
        cases hoffers
      · cases h
    · cases h

theorem leadsOwn_format : LeadsOwn format :=
  leadsOwn_of_none fun _ _ h => by
    unfold format at h
    split at h <;> cases h

theorem leadsOwn_uniqueItems : LeadsOwn uniqueItems :=
  leadsOwn_of_none fun _ _ h _ _ hoffers => by
    unfold uniqueItems at h
    split at h
    · cases h
      cases hoffers
    · cases h
    · cases h

variable [Pattern.Library]

/-- **What the checks of the built-in keywords hold is what their nodes have at the place.** -/
theorem leadsOwn_of_mem {name : String}
    {compile : Occurrence → Except SchemaError (Option Check)}
    (h : (name, compile) ∈ keywords) : LeadsOwn compile := by
  have hall : ∀ entry ∈ keywords, LeadsOwn entry.2 := by
    simp only [keywords, List.forall_mem_cons]
    exact ⟨leadsOwn_not, leadsOwn_items, leadsOwn_leadingItems, leadsOwn_passive,
      leadsOwn_contains, leadsOwn_passive, leadsOwn_passive, leadsOwn_additionalProperties,
      leadsOwn_patternProperties, leadsOwn_propertyNames, leadsOwn_dependentSchemas,
      leadsOwn_conditional, leadsOwn_passive, leadsOwn_passive, leadsOwn_bound _,
      leadsOwn_bound _, leadsOwn_bound _, leadsOwn_bound _, leadsOwn_multipleOf,
      leadsOwn_length _, leadsOwn_length _, leadsOwn_pattern, leadsOwn_format,
      leadsOwn_itemCount _, leadsOwn_itemCount _, leadsOwn_propertyCount _,
      leadsOwn_propertyCount _, leadsOwn_uniqueItems, fun _ h => absurd h List.not_mem_nil⟩
  exact hall _ h

/-- No built-in keyword is one for definitions. -/
theorem isDefinitions_eq_false_of_mem {name : String}
    {compile : Occurrence → Except SchemaError (Option Check)}
    (h : (name, compile) ∈ keywords) : isDefinitions name = false := by
  have hall : ∀ name ∈ keywords.map (·.1), isDefinitions name = false := by
    simp only [keywords, List.map_cons, List.map_nil]
    decide
  exact hall name (List.mem_map_of_mem (f := (·.1)) h)

end Builtin

/-- The segments of a place begin with the keyword or one of its siblings, none of which is one for
    definitions. -/
theorem Check.Offers.segmentsOf_eq_cons {c : Check} {place : SchemaPlace} {id : NodeId}
    (h : c.Offers place id) {keyword : String} (hkeyword : isDefinitions keyword = false) :
    ∃ name rest, Frame.segmentsOf keyword place = name :: rest ∧ isDefinitions name = false := by
  cases h with
  | positive => exact ⟨_, _, rfl, rfl⟩
  | negative => exact ⟨_, _, rfl, rfl⟩
  | additional => exact ⟨_, _, rfl, rfl⟩
  | _ => exact ⟨_, _, rfl, hkeyword⟩

/-- The schemas that a check of a built-in keyword holds are children of its node, under no
    definition, or the target of its reference. -/
theorem Builtin.holds_or_refers_of_offers [Pattern.Library] {name : String}
    {compile : Occurrence → Except SchemaError (Option Check)} (hmem : (name, compile) ∈ keywords)
    {written : Json} {id next : NodeId} {n : Node} {g : Graph} {check : Check}
    (hcheck : compile ⟨name, written, id, n, g⟩ = .ok (some check)) {place : SchemaPlace}
    (hoffers : check.Offers place next) : n.Holds next ∨ n.reference = some next := by
  obtain ⟨first, rest, hsegments, hfirst⟩ :=
    hoffers.segmentsOf_eq_cons (isDefinitions_eq_false_of_mem hmem)
  have hleads := leadsOwn_of_mem hmem _ check hcheck place next hoffers
  rw [hsegments] at hleads
  exact hleads.holds_or_refers hfirst

/-! ## 3. Compiled nodes -/

namespace Compiler

variable {c : Compiler} {g : Graph} {start id next : NodeId} {p : Program}

variable [Pattern.Library]

/-- A plugin of the default registry has no schemas evaluated but those its node leads to. -/
theorem holds_or_refers_of_asks {name : String} {plugin : Plugin}
    (h : Registry.default.find? name = some plugin) {written : Json} {n : Node} {act : Assertion}
    (hact : plugin ⟨name, written, id, n, g⟩ = .ok (some act)) {value : Json}
    (hasks : (act value).Asks next) : n.Holds next ∨ n.reference = some next := by
  obtain ⟨compile, check, hmem, hcheck, rfl⟩ := Registry.exists_check_of_find? h hact
  obtain ⟨place, hoffers⟩ := @Dialogue.Within.of_asks (fun id => ∃ place, check.Offers place id) _
    ((check.run_confined value).within fun place _ hr => ⟨place, hr.2⟩) _ hasks
  exact Builtin.holds_or_refers_of_offers hmem hcheck hoffers

/-- **Rules lead along the edges of the graph**: what a compiled node may have evaluated is a child
    of the node, under no definition, or the target of its reference. -/
theorem mem_edges_of_leads (hregistry : c.registry = .default) (hp : c.compile g start = .ok p)
    (h : p.Leads id next) : next ∈ edges g id := by
  obtain ⟨node, hnode, keyword, hk, huses⟩ := h
  obtain ⟨_, n, hn, hcompiled⟩ := compileNode_of_keyword hp hnode hk
  refine mem_edges.mpr ⟨n, hn, ?_⟩
  rcases keywordRule_of_compileNode hcompiled hk with hnever | ⟨d, written, _, _, hrule⟩
  · rw [hnever] at huses
    exact huses.elim
  · generalize keyword.rule = rule at hrule huses
    rcases keywordRule_cases hrule with
      ⟨_, _, hcore⟩ | ⟨_, hnone⟩ | ⟨plugin, act, _, hplugin, hact, he⟩
    · cases hcore with
      | type h => exact huses.elim
      | const => exact huses.elim
      | enum h => exact huses.elim
      | required h => exact huses.elim
      | properties h =>
        obtain ⟨entry, hentry, rfl⟩ := huses
        exact Or.inl ⟨_, _, mem_of_lookup (Node.children?_of_childMap? h), rfl,
          List.mem_map_of_mem (f := (·.2)) hentry⟩
      | ref h => exact Or.inr (huses ▸ h)
      | allOf h => exact Or.inl ⟨_, _, mem_of_lookup (Node.children?_of_childList? h), rfl, huses⟩
      | anyOf h => exact Or.inl ⟨_, _, mem_of_lookup (Node.children?_of_childList? h), rfl, huses⟩
      | oneOf h _ =>
        exact Or.inl ⟨_, _, mem_of_lookup (Node.children?_of_childList? h), rfl, huses⟩
      | dispatch h _ =>
        exact Or.inl ⟨_, _, mem_of_lookup (Node.children?_of_childList? h), rfl, huses⟩
    · cases hnone
    · cases act with
      | none => cases he
      | some act =>
        cases he
        obtain ⟨value, hasks⟩ := huses
        exact holds_or_refers_of_asks (hregistry ▸ hplugin) hact hasks

end Compiler

end TaggedSchema
